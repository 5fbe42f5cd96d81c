import NgxAnytls.Bytes

/-! SOCKS addresses and UoT packets (`ngx_anytls_socksaddr.c`). -/

namespace NgxAnytls

def maxSocksAddrLen : Nat := 259

inductive Family where
  | inet | inet6 | other
  deriving DecidableEq, Repr

/-- The bytes of an address of the family; other families are not looked into. -/
def Family.ipLen : Family → Nat
  | .inet => 4
  | .inet6 => 16
  | .other => 0

/-- A socket address; `port` in host order. -/
structure SockAddr where
  family : Family
  ip : Bytes
  port : Nat
  ip_length : ip.length = family.ipLen
  deriving DecidableEq, Repr

/-- The first `n` bytes of `p`. -/
def ipBytes (n : Nat) (p : Bytes) : Bytes := (List.range n).map fun i => p.getD i 0

@[simp] theorem ipBytes_length (n : Nat) (p : Bytes) : (ipBytes n p).length = n := by
  simp [ipBytes]

/-- The address that `p` starts with. -/
def SockAddr.ofBytes (family : Family) (p : Bytes) (port : Nat) : SockAddr :=
  ⟨family, ipBytes family.ipLen p, port, ipBytes_length _ _⟩

/-- `ngx_anytls_addr_mode_e`. -/
inductive AddrMode where
  | tcp | uotV1 | uotV2Connect | uotPacket
  deriving DecidableEq, Repr

/-- `ngx_anytls_addr_t`; `sockaddr = none` is `has_sockaddr = 0`. The printed form of a literal
address only names the peer in logs, so `host` stays empty there. -/
structure Addr where
  atyp : Nat := 0
  host : Bytes := []
  port : Nat := 0
  sockaddr : Option SockAddr := none
  mode : AddrMode := .tcp
  consumed : Nat := 0
  deriving DecidableEq, Repr

def toLower (b : UInt8) : UInt8 := if 65 ≤ b.toNat ∧ b.toNat ≤ 90 then b ||| 32 else b

/-- `udp-over-tcp.arpa`, and the two prefixes that name a version. -/
def uotSuffix : Bytes :=
  [117, 100, 112, 45, 111, 118, 101, 114, 45, 116, 99, 112, 46, 97, 114, 112, 97]
def uotV2Prefix : Bytes := [115, 112, 46, 118, 50, 46]
def uotV1Prefix : Bytes := [115, 112, 46]

/-- `ngx_anytls_detect_uot`, comparing without case. -/
def detectUot (host : Bytes) : AddrMode :=
  let host := host.map toLower
  if host = uotV2Prefix ++ uotSuffix then .uotV2Connect
  else if host = uotV1Prefix ++ uotSuffix then .uotV1
  else if uotSuffix.isSuffixOf host then .uotPacket
  else .tcp

/-- `ngx_anytls_parse_socksaddr`; `alloc` is the outcome of the copy of a domain. -/
def parseSocksaddr (bs : Bytes) (alloc : Bool := true) : Parse Addr :=
  match bs with
  | [] => .again
  | atyp :: p =>
    match atyp.toNat with
    | 1 =>
      if p.length < 6 then .again
      else
        let port := be16 (p.getD 4 0) (p.getD 5 0)
        .ok { atyp := 1, port := port, sockaddr := some (.ofBytes .inet p port),
              mode := detectUot [], consumed := 7 } 7
    | 4 =>
      if p.length < 18 then .again
      else
        let port := be16 (p.getD 16 0) (p.getD 17 0)
        .ok { atyp := 4, port := port, sockaddr := some (.ofBytes .inet6 p port),
              mode := detectUot [], consumed := 19 } 19
    | 3 =>
      match p with
      | [] => .again
      | len :: q =>
        if q.length + 1 < len.toNat + 3 then .again
        else if !alloc then .error
        else
          let host := q.take len.toNat
          .ok { atyp := 3, host := host,
                port := be16 (q.getD len.toNat 0) (q.getD (len.toNat + 1) 0),
                mode := detectUot host, consumed := len.toNat + 4 } (len.toNat + 4)
    | _ => .error

/-- The SOCKS address type a UoT address type stands for. -/
def uotAtyp (b : UInt8) : Option UInt8 :=
  match b.toNat with
  | 0 => some 1
  | 1 => some 4
  | 2 => some 3
  | _ => none

/-- `ngx_anytls_parse_uot_packet`: the address is read with its type byte rewritten in place and
put back; the value is the destination and the payload. -/
def parseUotPacket (bs : Bytes) (alloc : Bool := true) : Parse (Addr × Bytes) :=
  match bs with
  | [] => .again
  | atyp :: rest =>
    match uotAtyp atyp with
    | none => .error
    | some t =>
      match parseSocksaddr (t :: rest) alloc with
      | .again => .again
      | .error => .error
      | .ok addr n =>
        match bs.drop n with
        | l1 :: l0 :: p =>
          if p.length < be16 l1 l0 then .again
          else .ok (addr, p.take (be16 l1 l0)) (n + 2 + be16 l1 l0)
        | _ => .again

theorem parseSocksaddr_consumed {bs : Bytes} {b : Bool} {a : Addr} {n : Nat}
    (h : parseSocksaddr bs b = .ok a n) : a.consumed = n ∧ 0 < n ∧ n ≤ bs.length := by
  unfold parseSocksaddr at h
  cases bs with
  | nil => cases h
  | cons atyp p =>
    simp only at h
    split at h
    · split_ifs at h
      obtain ⟨rfl, rfl⟩ := Parse.ok.inj h
      refine ⟨rfl, by omega, ?_⟩
      simp only [List.length_cons]; omega
    · split_ifs at h
      obtain ⟨rfl, rfl⟩ := Parse.ok.inj h
      refine ⟨rfl, by omega, ?_⟩
      simp only [List.length_cons]; omega
    · cases p with
      | nil => cases h
      | cons len q =>
        simp only at h
        split_ifs at h
        obtain ⟨rfl, rfl⟩ := Parse.ok.inj h
        refine ⟨rfl, by omega, ?_⟩
        simp only [List.length_cons]; omega
    · cases h

theorem getD_append_lt (p rest : Bytes) (i : Nat) (hi : i < p.length) :
    (p ++ rest).getD i 0 = p.getD i 0 := by
  simp [List.getD_eq_getElem?_getD, List.getElem?_append_left hi]

theorem ofBytes_append (family : Family) (p rest : Bytes) (port : Nat)
    (hlen : family.ipLen ≤ p.length) :
    SockAddr.ofBytes family (p ++ rest) port = SockAddr.ofBytes family p port := by
  have hip : ipBytes family.ipLen (p ++ rest) = ipBytes family.ipLen p := by
    refine List.map_congr_left fun i hi => getD_append_lt _ _ _ ?_
    exact (List.mem_range.mp hi).trans_le hlen
  simp only [SockAddr.ofBytes, hip]

/-- A parsed address does not depend on the bytes after it. -/
theorem parseSocksaddr_append {bs : Bytes} {b : Bool} {a : Addr} {n : Nat}
    (h : parseSocksaddr bs b = .ok a n) (rest : Bytes) :
    parseSocksaddr (bs ++ rest) b = .ok a n := by
  unfold parseSocksaddr at h ⊢
  cases bs with
  | nil => cases h
  | cons atyp p =>
    simp only [List.cons_append] at h ⊢
    split at h
    · split_ifs at h with h1
      rw [if_neg (by simp only [List.length_append]; omega), getD_append_lt _ _ _ (by omega),
        getD_append_lt _ _ _ (by omega),
          ofBytes_append _ _ _ _ (by simp only [Family.ipLen]; omega)]
      exact h
    · split_ifs at h with h1
      rw [if_neg (by simp only [List.length_append]; omega), getD_append_lt _ _ _ (by omega),
        getD_append_lt _ _ _ (by omega),
          ofBytes_append _ _ _ _ (by simp only [Family.ipLen]; omega)]
      exact h
    · cases p with
      | nil => cases h
      | cons len q =>
        simp only [List.cons_append] at h ⊢
        split_ifs at h with h1 h2
        rw [if_neg (by simp only [List.length_append]; omega), if_neg h2,
          getD_append_lt _ _ _ (by omega), getD_append_lt _ _ _ (by omega),
          List.take_append_of_le_length (by omega)]
        exact h
    · cases h

/-- An address error does not depend on the bytes after it. -/
theorem parseSocksaddr_append_error {bs : Bytes} {b : Bool}
    (h : parseSocksaddr bs b = .error) (rest : Bytes) :
    parseSocksaddr (bs ++ rest) b = .error := by
  unfold parseSocksaddr at h ⊢
  cases bs with
  | nil => cases h
  | cons atyp p =>
    simp only [List.cons_append] at h ⊢
    split at h
    · split_ifs at h
    · split_ifs at h
    · cases p with
      | nil => cases h
      | cons len q =>
        simp only [List.cons_append] at h ⊢
        split_ifs at h with h1 h2
        rw [if_neg (by simp only [List.length_append]; omega), if_pos h2]
    · rfl

/-- No address needs more than `maxSocksAddrLen` bytes: a full buffer parses or fails. -/
theorem parseSocksaddr_full {bs : Bytes} {b : Bool} (h : maxSocksAddrLen ≤ bs.length) :
    parseSocksaddr bs b ≠ .again := by
  unfold maxSocksAddrLen at h
  unfold parseSocksaddr
  cases bs with
  | nil => simp at h
  | cons atyp p =>
    simp only [List.length_cons] at h
    simp only
    split
    · rw [if_neg (by omega)]; simp
    · rw [if_neg (by omega)]; simp
    · cases p with
      | nil => simp at h
      | cons len q =>
        have := len.toNat_lt
        simp only [List.length_cons] at h
        simp only
        rw [if_neg (by omega)]
        split <;> simp
    · simp

/-- An address that more bytes complete ends behind the first ones. -/
theorem parseSocksaddr_again_append {bs rest : Bytes} {b b' : Bool} {a : Addr} {n : Nat}
    (h : parseSocksaddr bs b = .again) (h' : parseSocksaddr (bs ++ rest) b' = .ok a n) :
    bs.length < n := by
  unfold parseSocksaddr at h h'
  cases bs with
  | nil => exact (@parseSocksaddr_consumed rest b' a n h').2.1
  | cons atyp p =>
    simp only [List.cons_append] at h h'
    simp only [List.length_cons]
    split at h
    · rename_i hatyp
      simp only [hatyp] at h'
      split_ifs at h h'
      obtain ⟨-, rfl⟩ := Parse.ok.inj h'
      omega
    · rename_i hatyp
      simp only [hatyp] at h'
      split_ifs at h h'
      obtain ⟨-, rfl⟩ := Parse.ok.inj h'
      omega
    · rename_i hatyp
      cases p with
      | nil =>
        simp only [hatyp, List.nil_append] at h'
        cases rest with
        | nil => cases h'
        | cons len q =>
          simp only at h'
          split_ifs at h'
          obtain ⟨-, rfl⟩ := Parse.ok.inj h'
          simp only [List.length_nil]
          omega
      | cons len q =>
        simp only [hatyp, List.cons_append] at h h'
        split_ifs at h h'
        obtain ⟨-, rfl⟩ := Parse.ok.inj h'
        simp only [List.length_cons]
        omega
    · cases h

theorem parseSocksaddr_ok_true {bs : Bytes} {b : Bool} {a : Addr} {n : Nat}
    (h : parseSocksaddr bs b = .ok a n) : parseSocksaddr bs true = .ok a n := by
  cases b with
  | true => exact h
  | false =>
    unfold parseSocksaddr at h ⊢
    cases bs with
    | nil => cases h
    | cons atyp p =>
      simp only at h ⊢
      split at h
      · exact h
      · exact h
      · cases p with
        | nil => cases h
        | cons len q =>
          simp only at h
          split_ifs at h with h1 h2
          simp at h2
      · cases h

end NgxAnytls
