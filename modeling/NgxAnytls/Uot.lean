import NgxAnytls.Upstream

/-! Name resolution and UDP over TCP (`ngx_anytls_resolver.c`, `ngx_anytls_uot.c`). -/

namespace NgxAnytls

def uotRecvSize : Nat := 65536

/-- `size_t` arithmetic. -/
def sizeWrap (n : Nat) : Nat := n % 2 ^ 64

def setTarget (h : Handle) (addr : Addr) (ac : Connection) : Connection :=
  ac.upd h fun st => { st with target := addr }

/-- `ngx_anytls_resolve_sync` of the stream's target. -/
def resolveSync (h : Handle) (ac : Connection) : Rc × Connection :=
  match ac.hostRes with
  | none => (.error, ac.hostNext)
  | some sa =>
    (.ok, setTarget h { (ac.streams h).target with sockaddr := some sa } ac.hostNext)

/-- The lookup starts: the answer will be for this name and port. -/
def startLookup (h : Handle) (target : ResolveTarget) (ac : Connection) : Connection :=
  ac.upd h fun st => { st with
    resolverCtx := true, resolverPending := true, resolverTarget := target
    resolverDomain := st.target.host, resolverPort := st.target.port }

/-- `ngx_anytls_resolve_addr` of the stream's target. `ngx_resolve_name` may call the handler
before it returns. -/
def resolveAddr (k : Callbacks) (h : Handle) (target : ResolveTarget) (ac : Connection) :
    Rc × Connection :=
  let st := ac.streams h
  if st.target.sockaddr.isSome then (.ok, ac)
  else if st.target.host.length = 0 ∨ 255 < st.target.host.length then (.error, ac)
  else if !ac.conf.resolver then resolveSync h ac
  else if st.resolverPending then (.again, ac)
  else
    match ac.lookupRes with
    | .startFailed => (.error, ac.lookupNext)
    | .noResolver => resolveSync h ac.lookupNext
    | answer =>
      let ac := ac.lookupNext
      if !ac.allocOk then (.error, ac.allocNext)
      else
        let ac := startLookup h target ac.allocNext
        match answer with
        | .nameFailed => (.error, resolverCancel h ac)
        | .done a => (.again, k.resolved h a ac)
        | _ => (.again, ac)

/-- The first address `ngx_anytls_resolver_copy_addr` can use. -/
def usableAddr (a : Answer) : Option SockAddr :=
  (a.getD []).find? fun sa => sa.family ≠ .other

/-- `ngx_anytls_resolver_copy_addr`. -/
def copyAddr (h : Handle) (sa : SockAddr) (ac : Connection) : Connection :=
  ac.upd h fun st => { st with
    target := { st.target with
      sockaddr := some { sa with port := st.resolverPort }, port := st.resolverPort } }

/-- The reset of the lookup's target, name and port. -/
def clearResolverTarget (h : Handle) (ac : Connection) : Connection :=
  ac.upd h fun st => { st with resolverTarget := .none, resolverDomain := [], resolverPort := 0 }

/-- Copy `data` to offset `off` of the buffer. -/
def writeAt (off : Nat) (data mem : Bytes) : Bytes :=
  (mem ++ List.replicate (off - mem.length) 0).take off ++ data ++ mem.drop (off + data.length)

/-- The bytes of the buffer that are not consumed yet. -/
def Stream.uotUnread (st : Stream) : Bytes :=
  ((st.uotRecvBuf.getD []).drop st.uotRecvPos).take st.uotRecvLen

/-- Move the unread bytes to the start of the buffer. -/
def uotCompact (h : Handle) (ac : Connection) : Connection :=
  ac.upd h fun st => { st with
    uotRecvBuf := some (writeAt 0 st.uotUnread (st.uotRecvBuf.getD [])), uotRecvPos := 0 }

/-- Copy the unread bytes to a new buffer of `n` bytes. -/
def uotGrow (h : Handle) (n : Nat) (ac : Connection) : Connection :=
  ac.upd h fun st => { st with
    uotRecvBuf := some st.uotUnread, uotRecvSize := n, uotRecvPos := 0 }

/-- Copy `data` behind the unread bytes. -/
def uotStore (h : Handle) (data : Bytes) (ac : Connection) : Connection :=
  ac.upd h fun st => { st with
    uotRecvBuf := some
      (writeAt (sizeWrap (st.uotRecvPos + st.uotRecvLen)) data (st.uotRecvBuf.getD []))
    uotRecvLen := st.uotRecvLen + data.length }

/-- Whether `len` more bytes do not fit behind the unread ones. -/
def Stream.uotLacks (st : Stream) (len : Nat) : Bool :=
  sizeWrap (st.uotRecvSize + 2 ^ 64 - sizeWrap (st.uotRecvPos + st.uotRecvLen)) < len

/-- `ngx_anytls_uot_buffer_append` with the buffer in place. -/
def uotBufferMakeRoom (h : Handle) (len : Nat) (ac : Connection) : Rc × Connection :=
  if !(ac.streams h).uotLacks len then (.ok, ac)
  else
    let ac := if (ac.streams h).uotRecvPos ≠ 0 then uotCompact h ac else ac
    let n := sizeWrap ((ac.streams h).uotRecvPos + (ac.streams h).uotRecvLen) + len
    if uotRecvSize < n then (.error, ac)
    else if (ac.streams h).uotLacks len then
      if !ac.allocOk then (.error, ac.allocNext)
      else (.ok, uotGrow h (min (n + n / 2) uotRecvSize) ac.allocNext)
    else (.ok, ac)

/-- A buffer of `uotRecvSize` bytes, if there is memory for it. -/
def uotSetRecvSize (h : Handle) (ac : Connection) : Connection :=
  ac.upd h fun st => { st with uotRecvSize := uotRecvSize }

def uotNewBuffer (h : Handle) (ac : Connection) : Connection :=
  ac.upd h fun st => { st with uotRecvBuf := some [] }

/-- `ngx_anytls_uot_buffer_append`. -/
def uotBufferAppend (h : Handle) (data : Bytes) (ac : Connection) : Rc × Connection :=
  if data = [] then (.ok, ac)
  else if (ac.streams h).uotRecvBuf.isNone then
    let ac := uotSetRecvSize h ac
    if !ac.allocOk then (.error, ac.allocNext)
    else
      let r := uotBufferMakeRoom h data.length (uotNewBuffer h ac.allocNext)
      if r.1 ≠ .ok then r else (.ok, uotStore h data r.2)
  else
    let r := uotBufferMakeRoom h data.length ac
    if r.1 ≠ .ok then r else (.ok, uotStore h data r.2)

/-- Advance the cursor so that `left` bytes stay unread. -/
def uotConsume (h : Handle) (left : Nat) (ac : Connection) : Connection :=
  ac.upd h fun st => { st with
    uotRecvPos := sizeWrap (st.uotRecvPos + sizeWrap (st.uotRecvLen + 2 ^ 64 - left))
    uotRecvLen := left }

/-- `ngx_anytls_uot_arm_idle_timer`, for a stream with memory for its event. -/
def uotArmIdleTimer (h : Handle) (ac : Connection) : Connection :=
  if (ac.streams h).udp.isNone ∨ ac.conf.uotIdleTimeout = 0 then ac
  else ac.upd h fun st => { st with uotTimer := true }

def setUdp (h : Handle) (udp : Option Family) (ac : Connection) : Connection :=
  ac.upd h fun st => { st with udp := udp }

/-- `ngx_anytls_udp_socket`. -/
def udpSocket (h : Handle) (family : Family) (ac : Connection) : Rc × Connection :=
  if (ac.streams h).udp = some family then (.ok, ac)
  else
    let ac := setUdp h none ac
    if !ac.udpOpenOk then (.error, ac.udpOpenNext)
    else (.ok, uotArmIdleTimer h (setUdp h (some family) ac.udpOpenNext))

/-- `ngx_anytls_uot_upstream_state_open`. -/
def uotUpstreamStateOpen (h : Handle) (ac : Connection) : Rc × Connection :=
  if (ac.streams h).uotMode ≠ .uotV2Connect ∨ (ac.streams h).upstreamStateOpened then (.ok, ac)
  else if !ac.allocOk then (.error, ac.allocNext)
  else (.ok, markStateOpened h ac.allocNext)

/-- `ngx_anytls_uot_send_resolved`: nothing is sent for an empty payload. -/
def uotSendResolved (h : Handle) (dst : Option SockAddr) (payload : Bytes) (ac : Connection) :
    Rc × Connection :=
  if payload = [] then (.ok, ac)
  else
    match dst with
    | none => (.error, ac)
    | some sa =>
      let r := udpSocket h sa.family ac
      if r.1 ≠ .ok then (.error, r.2)
      else
        let r := uotUpstreamStateOpen h r.2
        if r.1 ≠ .ok then (.error, r.2)
        else (.ok, r.2.log (.udpSend h sa payload))

/-- `ngx_anytls_uot_pending_matches`. -/
def UotPending.isFor (p : UotPending) (domain : Bytes) (port : Nat) : Bool :=
  p.domain = domain && p.port = port

/-- Put a packet at the end of the queue. -/
def uotAddPending (h : Handle) (p : UotPending) (ac : Connection) : Connection :=
  ac.upd h fun st => { st with
    uotPending := st.uotPending ++ [p]
    uotPendingCount := st.uotPendingCount + 1
    uotPendingBytes := st.uotPendingBytes + p.payload.length }

/-- `ngx_anytls_uot_enqueue_pending`. -/
def uotEnqueuePending (h : Handle) (addr : Addr) (payload : Bytes) (ac : Connection) :
    Rc × Connection :=
  let st := ac.streams h
  if addr.host.length = 0 ∨ 255 < addr.host.length ∨ payload = [] then (.ok, ac)
  else if ac.conf.uotPendingPackets ≤ st.uotPendingCount
      ∨ ac.conf.uotPendingBytes < st.uotPendingBytes + payload.length then (.ok, ac)
  else if !ac.allocOk then (.error, ac.allocNext)
  else if !ac.allocNext.allocOk then (.error, ac.allocNext.allocNext)
  else (.ok, uotAddPending h ⟨addr.host, addr.port, payload⟩ ac.allocNext.allocNext)

/-- Take one packet out of the queue. -/
def uotRemovePending (h : Handle) (p : UotPending) (ac : Connection) : Connection :=
  ac.upd h fun st => { st with
    uotPending := st.uotPending.erase p
    uotPendingCount := st.uotPendingCount - 1
    uotPendingBytes := st.uotPendingBytes - p.payload.length }

/-- `ngx_anytls_uot_drop_pending_domain`. -/
def uotDropPendingDomain (h : Handle) (domain : Bytes) (port : Nat) (ac : Connection) :
    Connection :=
  ((ac.streams h).uotPending.filter fun p => p.isFor domain port).foldl
    (fun ac p => uotRemovePending h p ac) ac

/-- The loop of `ngx_anytls_uot_flush_pending_domain` over the queue it starts from. -/
def uotFlushLoop (h : Handle) (domain : Bytes) (port : Nat) (dst : Option SockAddr) :
    List UotPending → Connection → Connection
  | [], ac => ac
  | p :: ps, ac =>
    if !p.isFor domain port then uotFlushLoop h domain port dst ps ac
    else
      let r := uotSendResolved h dst p.payload ac
      if r.1 ≠ .ok then uotDropPendingDomain h domain port r.2
      else uotFlushLoop h domain port dst ps (uotRemovePending h p r.2)

/-- `ngx_anytls_uot_flush_pending_domain`; a failed send drops the rest of the group. -/
def uotFlushPendingDomain (h : Handle) (domain : Bytes) (port : Nat) (ac : Connection) :
    Connection :=
  uotFlushLoop h domain port (ac.streams h).target.sockaddr (ac.streams h).uotPending ac

/-- The loop of `ngx_anytls_uot_process_pending`; each turn takes a packet out of the queue. -/
def uotProcessLoop (k : Callbacks) (h : Handle) : Nat → Connection → Connection
  | 0, ac => ac
  | fuel + 1, ac =>
    match (ac.streams h).uotPending with
    | [] => ac
    | p :: _ =>
      if (ac.streams h).resolverPending then ac
      else
        let r := resolveAddr k h .uotPacket (setTarget h { host := p.domain, port := p.port } ac)
        match r.1 with
        | .again => r.2
        | .error => uotProcessLoop k h fuel (uotDropPendingDomain h p.domain p.port r.2)
        | .ok => uotProcessLoop k h fuel (uotFlushPendingDomain h p.domain p.port r.2)

/-- `ngx_anytls_uot_process_pending`. -/
def uotProcessPending (k : Callbacks) (h : Handle) (ac : Connection) : Connection :=
  uotProcessLoop k h (ac.streams h).uotPending.length ac

/-- `ngx_anytls_uot_send_domain_packet`. -/
def uotSendDomainPacket (k : Callbacks) (h : Handle) (addr : Addr) (payload : Bytes)
    (ac : Connection) : Rc × Connection :=
  let r := uotEnqueuePending h addr payload ac
  if r.1 ≠ .ok then r
  else if !(r.2.streams h).resolverPending then (.ok, uotProcessPending k h r.2)
  else r

/-- `ngx_anytls_uot_resolve_addr` of the stream's target, in connect mode. -/
def uotResolveAddr (k : Callbacks) (h : Handle) (ac : Connection) : Rc × Connection :=
  if (ac.streams h).target.sockaddr.isSome then (.ok, ac) else resolveAddr k h .uotConnect ac

/-- `ngx_anytls_uot_send_payload`. In connect mode the address is the stream's target. -/
def uotSendPayload (k : Callbacks) (h : Handle) (addr : Addr) (payload : Bytes)
    (ac : Connection) : Rc × Connection :=
  if addr.sockaddr.isSome then uotSendResolved h addr.sockaddr payload ac
  else if (ac.streams h).uotMode ≠ .uotV2Connect then uotSendDomainPacket k h addr payload ac
  else
    let r := uotResolveAddr k h ac
    match r.1 with
    | .again => (.ok, r.2)
    | .error => (.error, r.2)
    | .ok => uotSendResolved h (r.2.streams h).target.sockaddr payload r.2

/-- The stream takes a UoT slot. -/
def takeUotSlot (h : Handle) (mode : AddrMode) (ac : Connection) : Connection :=
  { logState h .connected ac with uotStreams := ac.uotStreams + 1 }.upd h fun st => { st with
    uotCounted := true, upstreamType := .uot, uotMode := mode, state := .connected
    uotRequestParsed := decide (mode ≠ AddrMode.uotV2Connect) }

/-- `ngx_anytls_uot_open`. -/
def uotOpen (h : Handle) (addr : Addr) (ac : Connection) : Rc × Connection :=
  if ac.conf.maxUotStreams ≤ ac.uotStreams then (.error, ac)
  else sendSynack h [] (takeUotSlot h addr.mode ac)

/-- The length-prefixed datagrams of connect mode: what is left, `none` after an error. -/
def uotConnectLoop (k : Callbacks) (h : Handle) : Nat → Bytes → Connection →
    Option Bytes × Connection
  | 0, p, ac => (some p, ac)
  | fuel + 1, p, ac =>
    match p with
    | l1 :: l0 :: q =>
      if q.length < be16 l1 l0 then (some p, ac)
      else
        let r := uotSendPayload k h (ac.streams h).target (q.take (be16 l1 l0)) ac
        if r.1 ≠ .ok then (none, r.2)
        else uotConnectLoop k h fuel (q.drop (be16 l1 l0)) r.2
    | _ => (some p, ac)

/-- The packets of packet mode: what is left, `none` after an error. -/
def uotPacketLoop (k : Callbacks) (h : Handle) : Nat → Bytes → Connection →
    Option Bytes × Connection
  | 0, p, ac => (some p, ac)
  | fuel + 1, p, ac =>
    if p = [] then (some p, ac)
    else if !ac.allocOk then (none, ac.allocNext)
    else
      let ac := ac.allocNext
      match parseUotPacket p ac.allocOk with
      | .again => (some p, ac.allocNext)
      | .error => (none, ac.allocNext)
      | .ok v consumed =>
        let r := uotSendPayload k h v.1 v.2 ac.allocNext
        if r.1 ≠ .ok then (none, r.2)
        else uotPacketLoop k h fuel (p.drop consumed) r.2

/-- The datagrams of the stream's mode, then the cursor. -/
def uotDatagrams (k : Callbacks) (h : Handle) (p : Bytes) (ac : Connection) : Rc × Connection :=
  if (ac.streams h).uotMode = .uotV2Connect then
    let r := uotResolveAddr k h ac
    match r.1 with
    | .again => (.ok, uotConsume h p.length r.2)
    | .error => (.error, r.2)
    | .ok =>
      match uotConnectLoop k h p.length p r.2 with
      | (none, ac) => (.error, ac)
      | (some left, ac) => (.ok, uotConsume h left.length ac)
  else
    match uotPacketLoop k h p.length p ac with
    | (none, ac) => (.error, ac)
    | (some left, ac) => (.ok, uotConsume h left.length ac)

/-- The request of a version 2 stream is parsed. -/
def uotSetRequest (h : Handle) (isConnect : UInt8) (addr : Addr) (ac : Connection) : Connection :=
  ac.upd h fun st => { st with
    target := addr, uotRequestParsed := true
    uotMode := if isConnect = 0 then .uotPacket else .uotV2Connect }

/-- The request of a version 2 stream and the datagrams behind it. The request is read past in
`p` only: the cursor moves at the end. -/
def uotRequest (k : Callbacks) (h : Handle) (p : Bytes) (ac : Connection) : Rc × Connection :=
  match p with
  | [] => (.ok, ac)
  | isConnect :: q =>
    if !ac.allocOk then (.error, ac.allocNext)
    else
      let ac := ac.allocNext
      match parseSocksaddr q ac.allocOk with
      | .again => (.ok, ac.allocNext)
      | .error => (.error, ac.allocNext)
      | .ok addr consumed =>
        uotDatagrams k h (q.drop consumed) (uotSetRequest h isConnect addr ac.allocNext)

/-- `ngx_anytls_uot_client_payload`. -/
def uotClientPayload (k : Callbacks) (h : Handle) (data : Bytes) (ac : Connection) :
    Rc × Connection :=
  let r := uotBufferAppend h data ac
  if r.1 ≠ .ok then (.error, r.2)
  else
    let ac := r.2
    let st := ac.streams h
    if st.resolverPending ∧ st.resolverTarget ≠ .uotPacket then (.ok, ac)
    else if st.uotMode = .uotV2Connect ∧ !st.uotRequestParsed then
      uotRequest k h st.uotUnread ac
    else uotDatagrams k h st.uotUnread ac

/-- `ngx_anytls_uot_resolved`. -/
def uotResolved (k : Callbacks) (h : Handle) (ac : Connection) : Rc × Connection :=
  if (ac.streams h).uotMode ≠ .uotV2Connect ∨ (ac.streams h).target.sockaddr.isNone then
    (.error, ac)
  else uotClientPayload k h [] ac

/-- `ngx_anytls_uot_packet_resolve_failed`. -/
def uotPacketResolveFailed (k : Callbacks) (h : Handle) (ac : Connection) : Connection :=
  let domain := (ac.streams h).resolverDomain
  let port := (ac.streams h).resolverPort
  let ac := clearResolverTarget h ac
  let ac := if domain ≠ [] then uotDropPendingDomain h domain port ac else ac
  uotProcessPending k h ac

/-- `ngx_anytls_uot_packet_resolved`. -/
def uotPacketResolved (k : Callbacks) (h : Handle) (ac : Connection) : Rc × Connection :=
  if (ac.streams h).target.sockaddr.isNone then (.error, ac)
  else
    let domain := (ac.streams h).resolverDomain
    let port := (ac.streams h).resolverPort
    (.ok, uotProcessPending k h (uotFlushPendingDomain h domain port (clearResolverTarget h ac)))

/-- The packet-mode header: address type, address, port and length. -/
def uotPacketHeader (src : SockAddr) (n : Nat) : Bytes :=
  (if src.family = .inet then 0 else 1) :: src.ip ++
    [UInt8.ofNat (src.port / 256), UInt8.ofNat src.port, UInt8.ofNat (n / 256), UInt8.ofNat n]

/-- `NGX_ANYTLS_UOT_MAX_HEADER`. -/
def uotMaxHeader : Nat := 21

/-- The length of the header and the longest datagram let through, by family. -/
def uotHeaderLen : Family → Nat
  | .inet => 9
  | _ => 21
def uotDatagramLimit : Family → Nat
  | .inet => 65527
  | _ => 65515

/-- `ngx_anytls_uot_read_dgram`. -/
def uotReadDgram (h : Handle) (ac : Connection) : Rc × Connection :=
  if !ac.allocOk then (.error, ac.allocNext)
  else
    let ac := ac.allocNext
    match ac.recvFromRes with
    | .again => (.again, ac.recvFromNext)
    | .error => (.error, ac.recvFromNext)
    | .dgram src bs =>
      let ac := ac.recvFromNext
      let bs := bs.take maxFrameData
      if src.family = .other then (.ok, ac)
      else if uotDatagramLimit src.family < bs.length then (.ok, ac)
      else
        let buf : ReadBuf :=
          { pos := frameHeaderLen + uotMaxHeader - uotHeaderLen src.family
            data := uotPacketHeader src bs.length ++ bs }
        let r := queueChainFrame (some h) .psh (ac.streams h).id buf
          (bs.length + uotHeaderLen src.family) false ac
        if r.1 ≠ .ok then (.again, r.2) else (.ok, r.2)

end NgxAnytls
