import NgxAnytls.SocksAddr

/-! The client's side of a SOCKS address: what it sends, and what is read of it. -/

namespace NgxAnytls

/-- An address a client can name, with the port in host order. -/
inductive SocksTarget where
  | inet (ip : Bytes) (port : UInt16) (hip : ip.length = Family.inet.ipLen)
  | inet6 (ip : Bytes) (port : UInt16) (hip : ip.length = Family.inet6.ipLen)
  | domain (host : Bytes) (port : UInt16) (hhost : host.length ≤ 255)

def portBytes (port : Nat) : Bytes := [UInt8.ofNat (port / 256), UInt8.ofNat port]

/-- The bytes of the address. -/
def SocksTarget.encode : SocksTarget → Bytes
  | .inet ip port _ => 1 :: (ip ++ portBytes port.toNat)
  | .inet6 ip port _ => 4 :: (ip ++ portBytes port.toNat)
  | .domain host port _ => 3 :: UInt8.ofNat host.length :: (host ++ portBytes port.toNat)

/-- The address that is read from these bytes. -/
def SocksTarget.addr : SocksTarget → Addr
  | .inet ip port hip =>
    { atyp := 1, port := port.toNat, sockaddr := some ⟨.inet, ip, port.toNat, hip⟩
      mode := detectUot [], consumed := 7 }
  | .inet6 ip port hip =>
    { atyp := 4, port := port.toNat, sockaddr := some ⟨.inet6, ip, port.toNat, hip⟩
      mode := detectUot [], consumed := 19 }
  | .domain host port _ =>
    { atyp := 3, host := host, port := port.toNat, mode := detectUot host
      consumed := host.length + 4 }

@[simp] theorem portBytes_length (port : Nat) : (portBytes port).length = 2 := rfl

theorem getD_append_self (p : Bytes) (a : UInt8) (q : Bytes) :
    (p ++ a :: q).getD p.length 0 = a := by
  simp [List.getD_eq_getElem?_getD]

/-- The port stands right behind the address. -/
theorem be16_portBytes {p : Bytes} {n : Nat} (hn : n = p.length) {port : Nat} (hport : port < 65536)
    (rest : Bytes) :
    be16 ((p ++ (portBytes port ++ rest)).getD n 0)
      ((p ++ (portBytes port ++ rest)).getD (n + 1) 0) = port := by
  have hnext : (p ++ (portBytes port ++ rest)).getD (n + 1) 0 = UInt8.ofNat port := by
    have happ : p ++ (portBytes port ++ rest) =
        (p ++ [UInt8.ofNat (port / 256)]) ++ UInt8.ofNat port :: rest := by
      simp [portBytes]
    rw [happ, hn]
    have hlen : p.length + 1 = (p ++ [UInt8.ofNat (port / 256)]).length := by simp
    rw [hlen]
    exact getD_append_self _ _ _
  have hhere : (p ++ (portBytes port ++ rest)).getD n 0 = UInt8.ofNat (port / 256) := by
    rw [hn]
    exact getD_append_self p _ _
  rw [hhere, hnext]
  exact be16_ofNat port hport

/-- The bytes of an address are read back. -/
theorem ofBytes_self (family : Family) (ip rest : Bytes) (hip : ip.length = family.ipLen)
    (port : Nat) : SockAddr.ofBytes family (ip ++ rest) port = ⟨family, ip, port, hip⟩ := by
  have hread : ipBytes family.ipLen (ip ++ rest) = ip := by
    apply List.ext_getElem
    · rw [ipBytes_length, hip]
    · intro i hi hi'
      simp only [ipBytes, List.getElem_map, List.getElem_range]
      rw [getD_append_lt _ _ _ hi']
      simp [List.getD_eq_getElem?_getD, List.getElem?_eq_getElem hi']
  simp only [SockAddr.ofBytes, hread]

theorem SocksTarget.encode_length (t : SocksTarget) : t.encode.length = t.addr.consumed := by
  cases t with
  | inet ip port hip => simp [encode, addr, hip, Family.ipLen]
  | inet6 ip port hip => simp [encode, addr, hip, Family.ipLen]
  | domain host port hhost => simp [encode, addr]

theorem SocksTarget.encode_length_le (t : SocksTarget) : t.encode.length ≤ maxSocksAddrLen := by
  rw [t.encode_length]
  cases t with
  | inet | inet6 => simp [addr, maxSocksAddrLen]
  | domain host port hhost =>
    simp only [addr, maxSocksAddrLen]
    omega

theorem parseSocksaddr_inet (ip : Bytes) (port : Nat) (hip : ip.length = Family.inet.ipLen)
    (hport : port < 65536) (rest : Bytes) :
    parseSocksaddr (1 :: (ip ++ (portBytes port ++ rest))) =
      .ok { atyp := 1, port := port, sockaddr := some ⟨.inet, ip, port, hip⟩
            mode := detectUot [], consumed := 7 } 7 := by
  have hlen : ¬ (ip ++ (portBytes port ++ rest)).length < 6 := by
    simp only [List.length_append, portBytes_length, hip, Family.ipLen]
    omega
  unfold parseSocksaddr
  dsimp only [show (1 : UInt8).toNat = 1 from rfl]
  rw [if_neg hlen, be16_portBytes (n := 4) (by rw [hip]; rfl) hport rest,
    ofBytes_self .inet ip _ hip]
  rfl

theorem parseSocksaddr_inet6 (ip : Bytes) (port : Nat) (hip : ip.length = Family.inet6.ipLen)
    (hport : port < 65536) (rest : Bytes) :
    parseSocksaddr (4 :: (ip ++ (portBytes port ++ rest))) =
      .ok { atyp := 4, port := port, sockaddr := some ⟨.inet6, ip, port, hip⟩
            mode := detectUot [], consumed := 19 } 19 := by
  have hlen : ¬ (ip ++ (portBytes port ++ rest)).length < 18 := by
    simp only [List.length_append, portBytes_length, hip, Family.ipLen]
    omega
  unfold parseSocksaddr
  dsimp only [show (4 : UInt8).toNat = 4 from rfl]
  rw [if_neg hlen, be16_portBytes (n := 16) (by rw [hip]; rfl) hport rest,
    ofBytes_self .inet6 ip _ hip]
  rfl

private theorem parseSocksaddr_domain (host : Bytes) (port : Nat) (hhost : host.length ≤ 255)
    (hport : port < 65536) (rest : Bytes) :
    parseSocksaddr (3 :: UInt8.ofNat host.length :: (host ++ (portBytes port ++ rest))) =
      .ok { atyp := 3, host := host, port := port, mode := detectUot host
            consumed := host.length + 4 } (host.length + 4) := by
  have hn : (UInt8.ofNat host.length).toNat = host.length := by
    rw [UInt8.toNat_ofNat']
    omega
  have hlen : ¬ (host ++ (portBytes port ++ rest)).length + 1 < host.length + 3 := by
    simp only [List.length_append, portBytes_length]
    omega
  have htake : (host ++ (portBytes port ++ rest)).take host.length = host := List.take_left
  unfold parseSocksaddr
  dsimp only [show (3 : UInt8).toNat = 3 from rfl]
  rw [hn, if_neg hlen, be16_portBytes rfl hport rest, htake]
  rfl

/-- An encoded address is read back, whatever follows it. -/
theorem parseSocksaddr_encode (t : SocksTarget) (rest : Bytes) :
    parseSocksaddr (t.encode ++ rest) = .ok t.addr t.encode.length := by
  rw [t.encode_length]
  cases t with
  | inet ip port hip =>
    have happ : (SocksTarget.inet ip port hip).encode ++ rest =
        1 :: (ip ++ (portBytes port.toNat ++ rest)) := by simp [SocksTarget.encode]
    rw [happ]
    exact parseSocksaddr_inet ip port.toNat hip port.toNat_lt rest
  | inet6 ip port hip =>
    have happ : (SocksTarget.inet6 ip port hip).encode ++ rest =
        4 :: (ip ++ (portBytes port.toNat ++ rest)) := by simp [SocksTarget.encode]
    rw [happ]
    exact parseSocksaddr_inet6 ip port.toNat hip port.toNat_lt rest
  | domain host port hhost =>
    have happ : (SocksTarget.domain host port hhost).encode ++ rest =
        3 :: UInt8.ofNat host.length :: (host ++ (portBytes port.toNat ++ rest)) := by
      simp [SocksTarget.encode]
    rw [happ]
    exact parseSocksaddr_domain host port.toNat hhost port.toNat_lt rest

/-- A part of an address asks for more. -/
theorem parseSocksaddr_part {t : SocksTarget} {bs : Bytes} (hbs : bs <+: t.encode)
    (hlt : bs.length < t.encode.length) : parseSocksaddr bs = .again := by
  obtain ⟨rest, hrest⟩ := hbs
  have hall : parseSocksaddr (bs ++ rest) = .ok t.addr t.encode.length := by
    rw [hrest]
    have hnil := parseSocksaddr_encode t []
    rwa [List.append_nil] at hnil
  cases hp : parseSocksaddr bs with
  | again => rfl
  | error =>
    rw [parseSocksaddr_append_error hp rest] at hall
    cases hall
  | ok a n =>
    rw [parseSocksaddr_append hp rest] at hall
    obtain ⟨-, rfl⟩ := Parse.ok.inj hall
    exact absurd (parseSocksaddr_consumed hp).2.2 (not_le.mpr hlt)

end NgxAnytls
