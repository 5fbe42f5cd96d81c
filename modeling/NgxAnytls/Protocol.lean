import NgxAnytls.Bytes

/-! Frames and SETTINGS (`ngx_anytls_protocol.c`). -/

namespace NgxAnytls

def frameHeaderLen : Nat := 7
def maxFrameData : Nat := 65535

/-- `ngx_anytls_cmd_e`. -/
inductive Cmd where
  | waste | syn | psh | fin | settings | alert | updatePadding | synack
  | heartRequest | heartResponse | serverSettings
  deriving DecidableEq, Repr

def Cmd.toNat : Cmd → Nat
  | .waste => 0 | .syn => 1 | .psh => 2 | .fin => 3 | .settings => 4 | .alert => 5
  | .updatePadding => 6 | .synack => 7 | .heartRequest => 8 | .heartResponse => 9
  | .serverSettings => 10

def Cmd.ofByte? (b : UInt8) : Option Cmd :=
  match b.toNat with
  | 0 => some .waste | 1 => some .syn | 2 => some .psh | 3 => some .fin | 4 => some .settings
  | 5 => some .alert | 6 => some .updatePadding | 7 => some .synack | 8 => some .heartRequest
  | 9 => some .heartResponse | 10 => some .serverSettings
  | _ => none

/-- `ngx_anytls_frame_t`; a `NULL` data pointer is the empty list, `dataLen` stays. -/
structure Frame where
  cmd : UInt8
  streamId : UInt32
  dataLen : Nat
  data : Bytes
  deriving DecidableEq, Repr

/-- The payload is dropped for a command past `NGX_ANYTLS_CMD_SERVER_SETTINGS`. -/
def parseFrame (bs : Bytes) : Parse Frame :=
  match bs with
  | c :: i3 :: i2 :: i1 :: i0 :: l1 :: l0 :: rest =>
    let len := be16 l1 l0
    if rest.length < len then .again
    else if 10 < c.toNat then .ok ⟨c, be32 i3 i2 i1 i0, len, []⟩ (frameHeaderLen + len)
    else .ok ⟨c, be32 i3 i2 i1 i0, len, rest.take len⟩ (frameHeaderLen + len)
  | _ => .again

def writeFrameHeader (cmd : Nat) (streamId : UInt32) (len : Nat) : Bytes :=
  [UInt8.ofNat cmd,
   UInt8.ofNat (streamId.toNat / 2 ^ 24), UInt8.ofNat (streamId.toNat / 2 ^ 16),
   UInt8.ofNat (streamId.toNat / 2 ^ 8), UInt8.ofNat streamId.toNat,
   UInt8.ofNat (len / 256), UInt8.ofNat len]

@[simp] theorem writeFrameHeader_length (cmd : Nat) (id : UInt32) (len : Nat) :
    (writeFrameHeader cmd id len).length = frameHeaderLen := rfl

/-- What `parseFrame` reports of a frame written with command byte `cmd`. -/
def frameOf (cmd : UInt8) (id : UInt32) (payload : Bytes) : Frame :=
  ⟨cmd, id, payload.length, if 10 < cmd.toNat then [] else payload⟩

/-- The header of a frame followed by its payload. -/
def encodeFrame (cmd : UInt8) (id : UInt32) (payload : Bytes) : Bytes :=
  writeFrameHeader cmd.toNat id payload.length ++ payload

theorem encodeFrame_length (cmd : UInt8) (id : UInt32) (payload : Bytes) :
    (encodeFrame cmd id payload).length = frameHeaderLen + payload.length := by
  simp [encodeFrame]

/-- The parser reads back a frame, whatever follows it. -/
theorem parseFrame_encode (cmd : UInt8) (id : UInt32) (payload rest : Bytes)
    (hlen : payload.length ≤ maxFrameData) :
    parseFrame (encodeFrame cmd id payload ++ rest) =
      .ok (frameOf cmd id payload) (frameHeaderLen + payload.length) := by
  have hl : payload.length < 65536 := by unfold maxFrameData at hlen; omega
  simp only [encodeFrame, writeFrameHeader, List.cons_append, List.nil_append, parseFrame,
    be16_ofNat _ hl, be32_ofNat, frameOf]
  rw [if_neg (by simp)]
  split <;> simp_all

/-- A parsed frame consumes its header and its payload, within the bytes given. -/
theorem parseFrame_consumed {bs : Bytes} {f : Frame} {n : Nat} (h : parseFrame bs = .ok f n) :
    n = frameHeaderLen + f.dataLen ∧ n ≤ bs.length := by
  unfold parseFrame at h
  split at h
  · simp only at h
    split_ifs at h with h1 h2 <;> obtain ⟨rfl, rfl⟩ := Parse.ok.inj h <;>
      exact ⟨rfl, by simp only [List.length_cons, frameHeaderLen]; omega⟩
  · cases h

/-- `parseFrame` never reports an error. -/
theorem parseFrame_ne_error (bs : Bytes) : parseFrame bs ≠ .error := by
  unfold parseFrame
  split
  · simp only; split_ifs <;> simp
  · simp

/-- The result of a successful parse does not depend on what follows. -/
theorem parseFrame_append {bs : Bytes} {f : Frame} {n : Nat} (h : parseFrame bs = .ok f n)
    (rest : Bytes) : parseFrame (bs ++ rest) = .ok f n := by
  unfold parseFrame at h
  split at h
  · rename_i c i3 i2 i1 i0 l1 l0 tail
    simp only [List.cons_append, parseFrame]
    simp only at h
    split_ifs at h with h1 h2
    · rw [if_neg (by simp only [List.length_append]; omega), if_pos h2]
      exact h
    · rw [if_neg (by simp only [List.length_append]; omega), if_neg h2,
        List.take_append_of_le_length (by omega)]
      exact h
  · cases h

/-- `ngx_anytls_settings_t`; an absent text is empty. -/
structure Settings where
  version : Nat := 1
  client : Bytes := []
  paddingMd5 : Bytes := []
  deriving DecidableEq, Repr

def isCrLf (b : UInt8) : Bool := b == 10 || b == 13

def isDigit (b : UInt8) : Bool := 48 ≤ b.toNat && b.toNat ≤ 57

/-- `NGX_MAX_INT_T_VALUE` on a 64-bit build. -/
def maxIntT : Nat := 2 ^ 63 - 1

/-- `ngx_atoi`: `none` is `NGX_ERROR` (empty, non-digit, or past `NGX_MAX_INT_T_VALUE`). -/
def ngxAtoiLoop : Nat → Bytes → Option Nat
  | v, [] => some v
  | v, b :: bs =>
    if !isDigit b then none
    else if maxIntT < v * 10 + (b.toNat - 48) then none
    else ngxAtoiLoop (v * 10 + (b.toNat - 48)) bs

def ngxAtoi (bs : Bytes) : Option Nat := if bs = [] then none else ngxAtoiLoop 0 bs

/-- The keys `v`, `client` and `padding-md5`. -/
def keyV : Bytes := [118]
def keyClient : Bytes := [99, 108, 105, 101, 110, 116]
def keyPaddingMd5 : Bytes := [112, 97, 100, 100, 105, 110, 103, 45, 109, 100, 53]

/-- One non-empty line: the key is the text before the first `=`. -/
def settingsLine (st : Settings) (line : Bytes) : Settings :=
  if !line.contains 61 then st
  else
    let key := line.takeWhile (· != 61)
    let value := (line.dropWhile (· != 61)).drop 1
    if key = keyV then { st with version := (ngxAtoi value).getD 1 }
    else if key = keyClient then { st with client := value }
    else if key = keyPaddingMd5 then { st with paddingMd5 := value }
    else st

/-- The line loop of `ngx_anytls_parse_settings`; each turn takes at least one byte,
so `fuel` = the number of bytes is never short. -/
def parseSettingsLoop : Nat → Bytes → Settings → Settings
  | 0, _, st => st
  | fuel + 1, p, st =>
    if p = [] then st
    else
      let line := p.takeWhile (fun b => !isCrLf b)
      let rest := (p.dropWhile (fun b => !isCrLf b)).dropWhile isCrLf
      if line = [] then parseSettingsLoop fuel rest st
      else parseSettingsLoop fuel rest (settingsLine st line)

/-- `ngx_anytls_parse_settings`, its allocations succeeding. -/
def parseSettings (data : Bytes) : Settings := parseSettingsLoop data.length data {}

end NgxAnytls
