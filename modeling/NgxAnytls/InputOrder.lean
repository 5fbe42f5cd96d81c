import NgxAnytls.Accounting
import NgxAnytls.InputFlow

/-! However the client's bytes are cut into reads and wherever its input pauses, the core gets the
frames that the client sent. -/

namespace NgxAnytls

/-- What a client sends before its frames: the hash of a user, the length of the padding and the
padding. -/
def authHello (hash pad : Bytes) : Bytes :=
  hash ++ [UInt8.ofNat (pad.length / 256), UInt8.ofNat pad.length] ++ pad

/-- The length of a user's hash. -/
def authHashLen : Nat := 32

section Hello

variable {hash pad : Bytes}

private theorem authHello_length (hhash : hash.length = authHashLen) :
    (authHello hash pad).length = authPrefixLen + pad.length := by
  unfold authHashLen at hhash
  simp [authHello, authPrefixLen, hhash]
  omega

private theorem authHello_need (hhash : hash.length = authHashLen)
    (hpad : pad.length ≤ maxFrameData) :
    authNeed (authHello hash pad) = (authHello hash pad).length := by
  have hget : ∀ i, (hash ++ [UInt8.ofNat (pad.length / 256), UInt8.ofNat pad.length] ++ pad).getD
      (32 + i) 0 = ([UInt8.ofNat (pad.length / 256), UInt8.ofNat pad.length] ++ pad).getD i 0 :=
    fun i => by
      rw [List.getD_eq_getElem?_getD, List.getD_eq_getElem?_getD, List.append_assoc,
        List.getElem?_append_right (by rw [hhash, authHashLen]; omega), hhash, authHashLen,
        Nat.add_sub_cancel_left]
  have hlen := hget 0
  have hlen' := hget 1
  rw [authHello_length hhash, authNeed, authHello, hlen, hlen']
  exact congrArg _ (be16_ofNat _ (Nat.lt_succ_of_le hpad))

variable {auth more rest : Bytes}

/-- A buffer that holds the hash and the padding length knows how long the prefix is. -/
theorem authNeed_of_hello (hhash : hash.length = authHashLen) (hpad : pad.length ≤ maxFrameData)
    (hlen : authPrefixLen ≤ auth.length) (h : auth ++ more = authHello hash pad ++ rest) :
    authNeed auth = (authHello hash pad).length := by
  have hhello : authPrefixLen ≤ (authHello hash pad).length := by
    rw [authHello_length hhash]
    exact Nat.le_add_right _ _
  rw [← authNeed_append hlen more, h, authNeed_append hhello, authHello_need hhash hpad]

private theorem take_hash (hhash : hash.length = authHashLen) (hlen : authPrefixLen ≤ auth.length)
    (h : auth ++ more = authHello hash pad ++ rest) : auth.take 32 = hash := by
  unfold authPrefixLen at hlen
  unfold authHashLen at hhash
  have hlen' : 32 ≤ auth.length := by omega
  have hmore : (auth ++ more).take 32 = auth.take 32 := List.take_append_of_le_length hlen'
  rw [← hmore, h, authHello, List.append_assoc, List.append_assoc, List.take_left' hhash]

end Hello

/-- The input stands at some point of the prefix `hello` and the frames `ps`, of which the bytes
`more` were not received yet. -/
structure Connection.Follows (ac : Connection) (hello : Bytes) (ps : List Packet) (more : Bytes) :
    Prop where
  waits : ac.authenticated = false → ac.auth = received ac.trace ∧
    ac.auth.length < hello.length ∧ parsedFrames ac.trace = [] ∧ ac.remnant = []
  hello : ac.authenticated → ac.auth = hello
  frames : ac.authenticated → ∃ ps₁ ps₂, ps = ps₁ ++ ps₂ ∧
    parsedFrames ac.trace = ps₁.map Packet.frame ∧ ac.remnant ++ more = ps₂.flatMap Packet.encode
  whole : ac.inputPaused = false → parseFrame ac.remnant = .again
  all : more = [] → ac.inputPaused = false →
    parsedFrames ac.trace = ps.map Packet.frame ∧ ac.remnant = []

/-- Bytes that hold no whole frame are not those of a list of frames. -/
theorem flatMap_encode_again {ps : List Packet}
    (h : parseFrame (ps.flatMap Packet.encode) = .again) :
    ps = [] := by
  cases ps with
  | nil => rfl
  | cons p ps =>
    rw [List.flatMap_cons, Packet.encode, parseFrame_encode p.cmd p.id p.payload _ p.le] at h
    cases h

theorem Connection.follows_of_flow {ac : Connection} {u : User} {pad more : Bytes}
    {ps : List Packet}
    (hi : ac.view.Flow) (hu : u ∈ ac.conf.users) (hhash : u.hash.length = authHashLen)
    (hpad : pad.length ≤ maxFrameData)
    (hrec : received ac.trace ++ more = authHello u.hash pad ++ ps.flatMap Packet.encode) :
    ac.Follows (authHello u.hash pad) ps more := by
  have hwaits : ac.authenticated = false → ac.auth = received ac.trace ∧
      ac.auth.length < (authHello u.hash pad).length ∧ parsedFrames ac.trace = [] ∧
        ac.remnant = [] := fun hn => by
    rcases hi.unread hn with hr | ⟨hwait, heq⟩
    · -- the buffer holds the hash of a user
      obtain ⟨tail, htail⟩ := hi.auth
      have hfull : ac.auth.take authPrefixLen ++ (tail ++ more) =
          authHello u.hash pad ++ ps.flatMap Packet.encode := by
        rw [← List.append_assoc, ← hrec]
        exact congrArg (· ++ more) htail
      have hlen : authPrefixLen ≤ (ac.auth.take authPrefixLen).length := by
        rw [List.length_take]
        exact le_min le_rfl hr.1
      have htake := take_hash hhash hlen hfull
      rw [List.take_take] at htake
      exact absurd htake (hr.2.2 u hu)
    · have heq : received ac.trace = ac.auth := heq
      refine ⟨heq.symm, ?_, hi.unframed hn⟩
      rcases hwait with hshort | ⟨-, hshort⟩
      · rw [authHello_length hhash]
        exact hshort.trans_le (Nat.le_add_right _ _)
      · by_cases hlen : authPrefixLen ≤ ac.auth.length
        · rw [heq] at hrec
          rwa [show authNeed ac.view.auth = _ from authNeed_of_hello hhash hpad hlen hrec]
            at hshort
        · rw [authHello_length hhash]
          omega
  have hframed : ac.authenticated → ac.auth = authHello u.hash pad ∧ ∃ ps₁ ps₂, ps = ps₁ ++ ps₂ ∧
      parsedFrames ac.trace = ps₁.map Packet.frame ∧
        ac.remnant ++ more = ps₂.flatMap Packet.encode := fun h => by
    obtain ⟨hlen, hneed, rest, hrest, hsplit⟩ := hi.framed h
    have hrest : received ac.trace = ac.auth ++ rest := hrest
    rw [hrest, List.append_assoc] at hrec
    have hlength : ac.auth.length = (authHello u.hash pad).length :=
      Eq.trans hneed (authNeed_of_hello hhash hpad hlen hrec)
    obtain ⟨hauth, hmore⟩ := List.append_inj hrec hlength
    exact ⟨hauth, hsplit.of_encode hmore⟩
  refine ⟨hwaits, fun h => (hframed h).1, fun h => (hframed h).2, hi.idle, fun hmore hp => ?_⟩
  have hauth : ac.authenticated = true := by
    by_contra hn
    obtain ⟨heq, hlt, -, -⟩ := hwaits (Bool.eq_false_iff.mpr hn)
    have hlen := congrArg List.length hrec
    rw [hmore, List.append_nil, ← heq, List.length_append] at hlen
    omega
  obtain ⟨-, ps₁, ps₂, rfl, hparsed, hrem⟩ := hframed hauth
  have hidle : parseFrame ac.remnant = .again := hi.idle hp
  rw [hmore, List.append_nil] at hrem
  rw [hrem] at hidle
  obtain rfl := flatMap_encode_again hidle
  exact ⟨by rw [hparsed, List.append_nil], hrem⟩

/-- The core gets the frames a client sends behind its prefix, each once and in order, in whatever
reads they come and wherever input pauses, as long as no handler of a frame fails; the rest is kept,
and holds a whole frame only while input is paused. -/
theorem run_input_order (conf : Conf) (es : List (Event × Env)) (u : User) (hu : u ∈ conf.users)
    (hhash : u.hash.length = authHashLen) (pad : Bytes) (hpad : pad.length ≤ maxFrameData)
    (ps : List Packet) (more : Bytes) (hn : NotDropped (run conf es).trace)
    (hrec : received (run conf es).trace ++ more =
      authHello u.hash pad ++ ps.flatMap Packet.encode) :
    (run conf es).Follows (authHello u.hash pad) ps more := by
  have hconf : (run conf es).conf = conf := Reaches.conf (run_reaches conf es) (init_sane conf)
  exact Connection.follows_of_flow (run_flow conf es hn) (by rwa [hconf]) hhash hpad hrec

/-- A run whose reads cut a header and whose input pauses between two frames and resumes. -/
def pausingRun : List (Event × Env) :=
  [sampleRead (sampleHello sampleV2) {},
    sampleRead (encodeFrame 1 1 [] ++ encodeFrame 2 1 sampleTarget ++ [2, 0, 0])
      { connect := [.ok], send := [.again] },
    sampleRead ([0, 1, 0, 4, 6, 7, 8, 9] ++ encodeFrame 11 5 [4, 4] ++ [1, 0]) { send := [.again] },
    (.upstreamWrite 0 false true, { chain := [.done 4] })]

def pausingFrames : List Packet :=
  [⟨4, 0, sampleV2, by decide⟩, ⟨1, 1, [], by decide⟩, ⟨2, 1, sampleTarget, by decide⟩,
    ⟨2, 1, [6, 7, 8, 9], by decide⟩, ⟨11, 5, [4, 4], by decide⟩, ⟨1, 2, [], by decide⟩]

theorem pausingRun_kept : NotDropped (run sampleConf pausingRun).trace := by
  have hall : ((run sampleConf pausingRun).trace.all fun o =>
      match o with | .inputDropped _ => false | _ => true) = true := by decide
  intro bs hm
  exact absurd (List.all_eq_true.mp hall _ hm) Bool.false_ne_true

theorem run_input_order_pausing : (run sampleConf pausingRun).Follows
    (authHello (List.replicate 32 0) []) pausingFrames [0, 0, 2, 0, 0] :=
  run_input_order sampleConf pausingRun { name := [97], hash := List.replicate 32 0 }
    (List.mem_singleton.mpr rfl) rfl [] (by decide) pausingFrames [0, 0, 2, 0, 0] pausingRun_kept
    (by decide)

end NgxAnytls
