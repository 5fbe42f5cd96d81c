import NgxAnytls.State

/-! The upstream records of the access log (`ngx_anytls_upstream_state.c`): one array for a session,
and a tracker for each stream and for the fallback relay. -/

namespace NgxAnytls.UpstreamState

/-- `(ngx_msec_t) -1`. -/
def msecUnset : Nat := 18446744073709551615

/-- The difference of two `ngx_msec_t`. -/
def elapsed (now start : Nat) : Nat := (now + 18446744073709551616 - start) % 18446744073709551616

/-- `ngx_stream_upstream_state_t`. -/
structure UpstreamRecord where
  peer : Option Bytes := none
  connectTime : Nat := msecUnset
  firstByteTime : Nat := msecUnset
  responseTime : Nat := msecUnset
  bytesSent : Int := 0
  bytesReceived : Int := 0
  deriving DecidableEq, Repr

/-- `ngx_anytls_upstream_state_tracker_t`. -/
structure Tracker where
  index : Nat := 0
  startTime : Nat := 0
  bytesSent : Int := 0
  bytesReceived : Int := 0
  opened : Bool := false
  finalized : Bool := false
  deriving DecidableEq, Repr

/-- The tracker of a stream, or of the fallback relay. -/
abbrev Key := Option Handle

/-- `s->upstream_states`, the trackers and `ngx_current_msec`. -/
structure States where
  now : Nat := 0
  states : Option (List UpstreamRecord) := none
  trackers : Key → Tracker := fun _ => {}

/-- The answers of the four allocations of `ngx_anytls_upstream_state_open`. -/
structure OpenAnswers where
  array : Bool := true
  push : Bool := true
  copy : Bool := true
  data : Bool := true
  deriving DecidableEq, Repr

def States.setTracker (key : Key) (t : Tracker) (s : States) : States :=
  { s with trackers := Function.update s.trackers key t }

def States.setRecord (i : Nat) (r : UpstreamRecord) (s : States) : States :=
  { s with states := s.states.map fun rs => rs.set i r }

/-- `ngx_anytls_upstream_state_get`. -/
def upstreamStateGet (t : Tracker) (s : States) : Option UpstreamRecord :=
  match s.states with
  | none => none
  | some rs => if !t.opened then none else rs[t.index]?

/-- `ngx_anytls_upstream_state_copy_peer`. -/
def upstreamStateCopyPeer (peer : Bytes) (ans : OpenAnswers) (r : UpstreamRecord) :
    Option UpstreamRecord :=
  if peer.length = 0 then some r
  else if !ans.copy then none
  else if !ans.data then none
  else some { r with peer := some peer }

/-- The array, made when there is none. -/
def upstreamStatesArray (ans : OpenAnswers) (s : States) : Option (List UpstreamRecord) :=
  match s.states with
  | some rs => some rs
  | none => if ans.array then some [] else none

/-- `ngx_anytls_upstream_state_open`. A record whose peer cannot be copied is taken off again. -/
def upstreamStateOpen (key : Key) (peer : Bytes) (ans : OpenAnswers) (s : States) : Rc × States :=
  let t := s.trackers key
  if t.opened then (.ok, s)
  else
    match upstreamStatesArray ans s with
    | none => (.error, s)
    | some rs =>
      let s := { s with states := some rs }
      if !ans.push then (.error, s)
      else
        match upstreamStateCopyPeer peer ans {} with
        | none => (.error, s)
        | some r =>
          (.ok, { s with states := some (rs ++ [r]) }.setTracker key { t with
            index := rs.length, startTime := s.now, bytesSent := 0, bytesReceived := 0
            opened := true, finalized := false })

/-- `ngx_anytls_upstream_state_on_connect`. -/
def upstreamStateOnConnect (key : Key) (s : States) : States :=
  let t := s.trackers key
  match upstreamStateGet t s with
  | none => s
  | some r =>
    if t.finalized then s
    else if r.connectTime = msecUnset then
      s.setRecord t.index { r with connectTime := elapsed s.now t.startTime }
    else s

/-- `ngx_anytls_upstream_state_on_first_byte`. -/
def upstreamStateOnFirstByte (key : Key) (s : States) : States :=
  let t := s.trackers key
  match upstreamStateGet t s with
  | none => s
  | some r =>
    if t.finalized then s
    else if r.firstByteTime = msecUnset then
      s.setRecord t.index { r with firstByteTime := elapsed s.now t.startTime }
    else s

/-- `ngx_anytls_upstream_state_record_received`. -/
def upstreamStateRecordReceived (key : Key) (bytes : Int) (s : States) : States :=
  let t := s.trackers key
  if bytes ≤ 0 ∨ t.finalized then s
  else
    match upstreamStateGet t s with
    | none => s
    | some r =>
      let s := if r.firstByteTime = msecUnset then
          s.setRecord t.index { r with firstByteTime := elapsed s.now t.startTime }
        else s
      s.setTracker key { t with bytesReceived := t.bytesReceived + bytes }

/-- `ngx_anytls_upstream_state_add_bytes_sent`. -/
def upstreamStateAddBytesSent (key : Key) (bytes : Int) (s : States) : States :=
  let t := s.trackers key
  if bytes ≤ 0 ∨ (upstreamStateGet t s).isNone ∨ t.finalized then s
  else s.setTracker key { t with bytesSent := t.bytesSent + bytes }

/-- `ngx_anytls_upstream_state_add_bytes_received`. -/
def upstreamStateAddBytesReceived (key : Key) (bytes : Int) (s : States) : States :=
  let t := s.trackers key
  if bytes ≤ 0 ∨ (upstreamStateGet t s).isNone ∨ t.finalized then s
  else s.setTracker key { t with bytesReceived := t.bytesReceived + bytes }

/-- `ngx_anytls_upstream_state_finalize`. -/
def upstreamStateFinalize (key : Key) (s : States) : States :=
  let t := s.trackers key
  match upstreamStateGet t s with
  | none => s
  | some r =>
    if t.finalized then s
    else
      (s.setRecord t.index { r with
        responseTime := elapsed s.now t.startTime
        bytesSent := t.bytesSent, bytesReceived := t.bytesReceived }).setTracker key
          { t with finalized := true }

/-- What a stream or the relay tells its tracker. -/
inductive Call where
  | open (peer : Bytes) (ans : OpenAnswers)
  | onConnect
  | onFirstByte
  | recordReceived (bytes : Int)
  | addBytesSent (bytes : Int)
  | addBytesReceived (bytes : Int)
  | finalize
  deriving DecidableEq, Repr

/-- Time passes, or a tracker is told of something. -/
inductive Op where
  | tick (ms : Nat)
  | call (key : Key) (c : Call)
  deriving DecidableEq, Repr

def callState (key : Key) (c : Call) (s : States) : States :=
  match c with
  | .open peer ans => (upstreamStateOpen key peer ans s).2
  | .onConnect => upstreamStateOnConnect key s
  | .onFirstByte => upstreamStateOnFirstByte key s
  | .recordReceived bytes => upstreamStateRecordReceived key bytes s
  | .addBytesSent bytes => upstreamStateAddBytesSent key bytes s
  | .addBytesReceived bytes => upstreamStateAddBytesReceived key bytes s
  | .finalize => upstreamStateFinalize key s

def stepState (s : States) : Op → States
  | .tick ms => { s with now := s.now + ms }
  | .call key c => callState key c s

def runStates (ops : List Op) : States := ops.foldl stepState {}

-- What the trackers are for: an account of its own for each stream, that no other one touches.

structure Account where
  start : Nat := 0
  sent : Int := 0
  received : Int := 0
  opened : Bool := false
  finalized : Bool := false
  record : UpstreamRecord := {}
  deriving DecidableEq, Repr

/-- An account that is open and not settled yet. -/
def Account.live (a : Account) : Bool := a.opened && !a.finalized

def UpstreamRecord.connected (time : Nat) (r : UpstreamRecord) : UpstreamRecord :=
  { r with connectTime := if r.connectTime = msecUnset then time else r.connectTime }

def UpstreamRecord.firstByte (time : Nat) (r : UpstreamRecord) : UpstreamRecord :=
  { r with firstByteTime := if r.firstByteTime = msecUnset then time else r.firstByteTime }

/-- The record a new account begins with. -/
def openedRecord (peer : Bytes) : UpstreamRecord :=
  { peer := if peer.length = 0 then none else some peer }

/-- An account is opened when there is memory for it; `made` says that the array is there. -/
def OpenAnswers.opens (made : Bool) (peer : Bytes) (ans : OpenAnswers) : Bool :=
  (made || ans.array) && ans.push && (decide (peer.length = 0) || (ans.copy && ans.data))

def Account.call (now : Nat) (made : Bool) (c : Call) (a : Account) : Account :=
  match c with
  | .open peer ans =>
    if a.opened then a
    else if ans.opens made peer then
      { start := now, opened := true, record := openedRecord peer }
    else a
  | .onConnect =>
    if a.live then { a with record := a.record.connected (elapsed now a.start) } else a
  | .onFirstByte =>
    if a.live then { a with record := a.record.firstByte (elapsed now a.start) } else a
  | .recordReceived bytes =>
    if 0 < bytes ∧ a.live then
      { a with record := a.record.firstByte (elapsed now a.start), received := a.received + bytes }
    else a
  | .addBytesSent bytes => if 0 < bytes ∧ a.live then { a with sent := a.sent + bytes } else a
  | .addBytesReceived bytes =>
    if 0 < bytes ∧ a.live then { a with received := a.received + bytes } else a
  | .finalize =>
    if a.live then
      { a with finalized := true, record := { a.record with
        responseTime := elapsed now a.start, bytesSent := a.sent, bytesReceived := a.received } }
    else a

/-- The accounts of a session. -/
structure Accounts where
  now : Nat := 0
  made : Bool := false
  accounts : Key → Account := fun _ => {}

/-- Whether an attempt to open an account makes the array. -/
def Accounts.makes (key : Key) (c : Call) (a : Accounts) : Bool :=
  match c with
  | .open _ ans => !(a.accounts key).opened && ans.array
  | _ => false

def stepAccounts (a : Accounts) : Op → Accounts
  | .tick ms => { a with now := a.now + ms }
  | .call key c =>
    { a with
      made := a.made || a.makes key c
      accounts := Function.update a.accounts key ((a.accounts key).call a.now a.made c) }

def runAccounts (ops : List Op) : Accounts := ops.foldl stepAccounts {}

def States.records (s : States) : List UpstreamRecord := s.states.getD []

/-- The account of a tracker: its counters, and the record it points to. -/
def States.account (s : States) (key : Key) : Account :=
  let t := s.trackers key
  { start := t.startTime, sent := t.bytesSent, received := t.bytesReceived
    opened := t.opened, finalized := t.finalized
    record := if t.opened then s.records.getD t.index {} else {} }

/-- The record at each index belongs to one open tracker. -/
structure Owned (keys : List Key) (s : States) : Prop where
  length : keys.length = s.records.length
  owner : ∀ key i, keys[i]? = some key ↔ (s.trackers key).opened = true ∧ (s.trackers key).index = i
  fresh : ∀ key, (s.trackers key).opened = false → s.trackers key = {}

/-- The array and the trackers hold the accounts. -/
structure Holds (s : States) (a : Accounts) : Prop where
  now : s.now = a.now
  made : s.states.isSome = a.made
  account : ∀ key, s.account key = a.accounts key
  owned : ∃ keys, Owned keys s

variable {s : States} {a : Accounts} {key : Key}

theorem States.account_of_opened (h : (s.trackers key).opened = true) :
    s.account key =
      { start := (s.trackers key).startTime, sent := (s.trackers key).bytesSent
        received := (s.trackers key).bytesReceived, opened := true
        finalized := (s.trackers key).finalized
        record := s.records.getD (s.trackers key).index {} } := by
  simp [States.account, h]

theorem Holds.opened (h : Holds s a) : (a.accounts key).opened = (s.trackers key).opened := by
  rw [← h.account key]
  rfl

theorem Holds.finalized (h : Holds s a) :
    (a.accounts key).finalized = (s.trackers key).finalized := by
  rw [← h.account key]
  rfl

/-- The index of an open tracker lies in the array. -/
theorem Owned.index_lt {keys : List Key} (h : Owned keys s) (ho : (s.trackers key).opened = true) :
    (s.trackers key).index < s.records.length := by
  have hkey : keys[(s.trackers key).index]? = some key := (h.owner key _).mpr ⟨ho, rfl⟩
  obtain ⟨hlt, -⟩ := List.getElem?_eq_some_iff.mp hkey
  rwa [← h.length]

theorem States.get_eq (t : Tracker) (s : States) :
    upstreamStateGet t s = if t.opened then s.records[t.index]? else none := by
  cases hs : s.states <;> cases ht : t.opened <;> simp [upstreamStateGet, States.records, hs, ht]

/-- An account that is live is found, with its record. -/
theorem Holds.get_live (h : Holds s a) (hl : (a.accounts key).live = true) :
    upstreamStateGet (s.trackers key) s = some (a.accounts key).record ∧
      (s.trackers key).opened = true ∧ (s.trackers key).finalized = false := by
  obtain ⟨keys, ho⟩ := h.owned
  have hopen : (s.trackers key).opened = true := by
    rw [← h.opened]
    exact (Bool.and_eq_true _ _ ▸ hl).1
  have hfin : (s.trackers key).finalized = false := by
    rw [← h.finalized]
    have hn : (!(a.accounts key).finalized) = true := (Bool.and_eq_true _ _ ▸ hl).2
    simpa using hn
  have hlt := ho.index_lt hopen
  refine ⟨?_, hopen, hfin⟩
  rw [States.get_eq, if_pos hopen, ← h.account key, States.account_of_opened hopen,
    List.getElem?_eq_getElem hlt, List.getD_eq_getElem?_getD, List.getElem?_eq_getElem hlt,
    Option.getD_some]

/-- An account that is not live is not found, or found settled. -/
theorem Holds.get_idle (h : Holds s a) (hl : (a.accounts key).live = false) :
    upstreamStateGet (s.trackers key) s = none ∨ (s.trackers key).finalized = true := by
  rw [Account.live, h.opened, h.finalized] at hl
  cases ho : (s.trackers key).opened with
  | false =>
    left
    simp [States.get_eq, ho]
  | true =>
    right
    simpa [ho] using hl

/-- A record and its tracker are written, the tracker staying at its index. -/
def States.write (key : Key) (t : Tracker) (r : UpstreamRecord) (s : States) : States :=
  (s.setRecord t.index r).setTracker key t

@[simp] theorem States.setRecord_records (i : Nat) (r : UpstreamRecord) (s : States) :
    (s.setRecord i r).records = s.records.set i r := by
  cases hs : s.states <;> simp [States.setRecord, States.records, hs]

theorem States.setRecord_self {i : Nat} {r : UpstreamRecord} (h : s.records[i]? = some r) :
    s.setRecord i r = s := by
  cases hs : s.states with
  | none => simp [States.records, hs] at h
  | some rs =>
    have hset : rs.set i r = rs := by
      obtain ⟨hlt, rfl⟩ := List.getElem?_eq_some_iff.mp (by simpa [States.records, hs] using h)
      exact List.set_getElem_self hlt
    cases s
    simp_all [States.setRecord]

theorem States.setTracker_self : s.setTracker key (s.trackers key) = s := by
  simp [States.setTracker]

@[simp] theorem States.write_records (t : Tracker) (r : UpstreamRecord) :
    (s.write key t r).records = s.records.set t.index r :=
  States.setRecord_records t.index r s

@[simp] theorem States.write_trackers_self (t : Tracker) (r : UpstreamRecord) :
    (s.write key t r).trackers key = t := by
  simp [States.write, States.setTracker]

@[simp] theorem States.write_trackers_of_ne {key' : Key} (hk : key' ≠ key) (t : Tracker)
    (r : UpstreamRecord) : (s.write key t r).trackers key' = s.trackers key' := by
  simp [States.write, States.setTracker, States.setRecord, hk]

/-- A write keeps the owners. -/
theorem Owned.write {keys : List Key} (h : Owned keys s) {t : Tracker} (r : UpstreamRecord)
    (ho : (s.trackers key).opened = true) (ht : t.opened = true)
    (hi : t.index = (s.trackers key).index) : Owned keys (s.write key t r) where
  length := by
    rw [States.write_records, List.length_set]
    exact h.length
  owner key' i := by
    by_cases hk : key' = key
    · subst hk
      simpa [ht, hi, ho] using h.owner key' i
    · simpa [hk] using h.owner key' i
  fresh key' hf := by
    by_cases hk : key' = key
    · subst hk
      simp [ht] at hf
    · rw [States.write_trackers_of_ne hk] at hf ⊢
      exact h.fresh key' hf

/-- Two open trackers have their own indexes. -/
theorem Owned.index_ne {keys : List Key} (h : Owned keys s) {key' : Key} (hk : key' ≠ key)
    (ho : (s.trackers key).opened = true) (ho' : (s.trackers key').opened = true) :
    (s.trackers key).index ≠ (s.trackers key').index := by
  intro he
  have h1 := (h.owner key _).mpr ⟨ho, rfl⟩
  have h2 := (h.owner key' _).mpr ⟨ho', rfl⟩
  rw [he, h2] at h1
  exact hk (Option.some.inj h1)

/-- A write changes one account, whatever the array holds for the others. -/
theorem Holds.write (h : Holds s a) {t : Tracker} (r : UpstreamRecord)
    (ho : (s.trackers key).opened = true) (ht : t.opened = true)
    (hi : t.index = (s.trackers key).index) :
    Holds (s.write key t r)
      { a with
        accounts := Function.update a.accounts key
          { start := t.startTime, sent := t.bytesSent, received := t.bytesReceived
            opened := true, finalized := t.finalized, record := r } } := by
  obtain ⟨keys, hown⟩ := h.owned
  refine ⟨h.now, ?_, ?_, keys, hown.write r ho ht hi⟩
  · simpa [States.write, States.setTracker, States.setRecord] using h.made
  · intro key'
    by_cases hk : key' = key
    · subst hk
      have hlt : t.index < s.records.length := hi ▸ hown.index_lt ho
      rw [States.account_of_opened (by simpa using ht)]
      simp [hlt]
    · simp only [Function.update_of_ne hk]
      rw [← h.account key']
      cases ho' : (s.trackers key').opened with
      | false => simp [States.account, hk, ho']
      | true =>
        have hne : t.index ≠ (s.trackers key').index := hi ▸ hown.index_ne hk ho ho'
        rw [States.account_of_opened (by simpa [hk] using ho'), States.account_of_opened ho']
        simp [hk, List.getElem?_set_ne hne]

/-- The tracker of an account, at the index it has. -/
def Account.tracker (b : Account) (t : Tracker) : Tracker :=
  { t with bytesSent := b.sent, bytesReceived := b.received, finalized := b.finalized }

theorem States.write_tracker (r : UpstreamRecord) :
    s.write key (s.trackers key) r = s.setRecord (s.trackers key).index r := by
  simp [States.write, States.setTracker, States.setRecord]

theorem States.write_record {t : Tracker} {r : UpstreamRecord} (h : s.records[t.index]? = some r) :
    s.write key t r = s.setTracker key t := by
  rw [States.write, States.setRecord_self h]

theorem UpstreamRecord.connected_eq {r : UpstreamRecord} {time : Nat}
    (h : ¬r.connectTime = msecUnset) : r.connected time = r := by
  simp [UpstreamRecord.connected, h]

theorem UpstreamRecord.firstByte_eq {r : UpstreamRecord} {time : Nat}
    (h : ¬r.firstByteTime = msecUnset) : r.firstByte time = r := by
  simp [UpstreamRecord.firstByte, h]

/-- A call on a live account writes its record and its tracker. -/
theorem Holds.callState_live (h : Holds s a) (hl : (a.accounts key).live = true) {c : Call}
    (hc : ∀ peer ans, c ≠ .open peer ans) :
    callState key c s =
      s.write key (((a.accounts key).call a.now a.made c).tracker (s.trackers key))
        ((a.accounts key).call a.now a.made c).record := by
  obtain ⟨hget, ho, hf⟩ := h.get_live hl
  have hrec : s.records[(s.trackers key).index]? = some (a.accounts key).record := by
    rw [States.get_eq, if_pos ho] at hget
    exact hget
  have hacc := h.account key
  rw [States.account_of_opened ho, hf] at hacc
  have hstart : (a.accounts key).start = (s.trackers key).startTime := by rw [← hacc]
  have hsent : (a.accounts key).sent = (s.trackers key).bytesSent := by rw [← hacc]
  have hreceived : (a.accounts key).received = (s.trackers key).bytesReceived := by rw [← hacc]
  have hfin : (a.accounts key).finalized = (s.trackers key).finalized := h.finalized
  have hself : ∀ r, Account.tracker { a.accounts key with record := r } (s.trackers key) =
      s.trackers key := by
    intro r
    rw [Account.tracker, hsent, hreceived, hfin]
  have hsame : s.write key (s.trackers key) (a.accounts key).record = s := by
    rw [States.write_record hrec, States.setTracker_self]
  cases c with
  | «open» peer ans => exact absurd rfl (hc peer ans)
  | onConnect =>
    have hb : (a.accounts key).call a.now a.made .onConnect = { a.accounts key with
        record := (a.accounts key).record.connected (elapsed a.now (a.accounts key).start) } :=
      if_pos hl
    rw [hb, callState, upstreamStateOnConnect, hget, ← h.now, hstart]
    simp only [hf, Bool.false_eq_true, if_false]
    split
    · rename_i hc
      rw [hself, States.write_tracker]
      simp only [UpstreamRecord.connected, hc, if_true]
    · rename_i hc
      rw [hself, UpstreamRecord.connected_eq hc, hsame]
  | onFirstByte =>
    have hb : (a.accounts key).call a.now a.made .onFirstByte = { a.accounts key with
        record := (a.accounts key).record.firstByte (elapsed a.now (a.accounts key).start) } :=
      if_pos hl
    rw [hb, callState, upstreamStateOnFirstByte, hget, ← h.now, hstart]
    simp only [hf, Bool.false_eq_true, if_false]
    split
    · rename_i hc
      rw [hself, States.write_tracker]
      simp only [UpstreamRecord.firstByte, hc, if_true]
    · rename_i hc
      rw [hself, UpstreamRecord.firstByte_eq hc, hsame]
  | recordReceived bytes =>
    rw [callState, upstreamStateRecordReceived, hget]
    by_cases hp : 0 < bytes
    · have hb : (a.accounts key).call a.now a.made (.recordReceived bytes) = { a.accounts key with
          record := (a.accounts key).record.firstByte (elapsed a.now (a.accounts key).start)
          received := (a.accounts key).received + bytes } :=
        if_pos ⟨hp, hl⟩
      rw [hb, if_neg (by simp [hp, hf]), ← h.now, hstart]
      have ht : Account.tracker { a.accounts key with
            record := (a.accounts key).record.firstByte
              (elapsed s.now (s.trackers key).startTime)
            received := (a.accounts key).received + bytes } (s.trackers key) =
          { s.trackers key with bytesReceived := (s.trackers key).bytesReceived + bytes } := by
        rw [Account.tracker]
        simp only [hsent, hreceived, hfin]
      rw [ht]
      dsimp only
      split
      · rename_i hc
        simp only [UpstreamRecord.firstByte, hc, if_true]
        rfl
      · rename_i hc
        rw [UpstreamRecord.firstByte_eq hc, States.write_record (by exact hrec)]
    · have hb : (a.accounts key).call a.now a.made (.recordReceived bytes) = a.accounts key :=
        if_neg (by simp [hp])
      rw [hb, if_pos (Or.inl (by omega)), hself (a.accounts key).record, hsame]
  | addBytesSent bytes =>
    rw [callState, upstreamStateAddBytesSent, hget]
    by_cases hp : 0 < bytes
    · have hb : (a.accounts key).call a.now a.made (.addBytesSent bytes) =
          { a.accounts key with sent := (a.accounts key).sent + bytes } :=
        if_pos ⟨hp, hl⟩
      rw [hb, if_neg (by simp [hp, hf]), States.write_record (by exact hrec), Account.tracker]
      simp only [hsent, hreceived, hfin]
    · have hb : (a.accounts key).call a.now a.made (.addBytesSent bytes) = a.accounts key :=
        if_neg (by simp [hp])
      rw [hb, if_pos (Or.inl (by omega)), hself (a.accounts key).record, hsame]
  | addBytesReceived bytes =>
    rw [callState, upstreamStateAddBytesReceived, hget]
    by_cases hp : 0 < bytes
    · have hb : (a.accounts key).call a.now a.made (.addBytesReceived bytes) =
          { a.accounts key with received := (a.accounts key).received + bytes } :=
        if_pos ⟨hp, hl⟩
      rw [hb, if_neg (by simp [hp, hf]), States.write_record (by exact hrec), Account.tracker]
      simp only [hsent, hreceived, hfin]
    · have hb : (a.accounts key).call a.now a.made (.addBytesReceived bytes) = a.accounts key :=
        if_neg (by simp [hp])
      rw [hb, if_pos (Or.inl (by omega)), hself (a.accounts key).record, hsame]
  | finalize =>
    have hb : (a.accounts key).call a.now a.made .finalize = { a.accounts key with
        finalized := true
        record := { (a.accounts key).record with
          responseTime := elapsed a.now (a.accounts key).start
          bytesSent := (a.accounts key).sent, bytesReceived := (a.accounts key).received } } :=
      if_pos hl
    rw [hb, callState, upstreamStateFinalize, hget, ← h.now, hstart, Account.tracker]
    simp only [hf, Bool.false_eq_true, if_false, hsent, hreceived]
    rfl

/-- A call on a live account changes that account. -/
theorem Holds.live (h : Holds s a) (hl : (a.accounts key).live = true) {c : Call}
    (hc : ∀ peer ans, c ≠ .open peer ans) :
    Holds (callState key c s) (stepAccounts a (.call key c)) := by
  obtain ⟨-, ho, -⟩ := h.get_live hl
  have hopen : ((a.accounts key).call a.now a.made c).opened = true := by
    have hao : (a.accounts key).opened = true := h.opened.trans ho
    cases c <;> simp only [Account.call] <;> split <;> simp_all
  have hstart : ((a.accounts key).call a.now a.made c).start = (s.trackers key).startTime := by
    have has : (a.accounts key).start = (s.trackers key).startTime := by
      rw [← h.account key]
      rfl
    cases c <;> simp only [Account.call] <;> split <;> simp_all
  have hmade : a.makes key c = false := by
    cases c <;> first | rfl | simp_all
  rw [h.callState_live hl hc]
  have hw := h.write (t := ((a.accounts key).call a.now a.made c).tracker (s.trackers key))
    ((a.accounts key).call a.now a.made c).record ho ho rfl
  have hacc : ({ start := (s.trackers key).startTime
                 sent := ((a.accounts key).call a.now a.made c).sent
                 received := ((a.accounts key).call a.now a.made c).received
                 opened := true
                 finalized := ((a.accounts key).call a.now a.made c).finalized
                 record := ((a.accounts key).call a.now a.made c).record } : Account) =
      (a.accounts key).call a.now a.made c := by
    rw [← hstart, ← hopen]
  rw [stepAccounts, hmade, Bool.or_false]
  simpa only [Account.tracker, hacc] using hw

/-- A call on an account that is not live changes nothing. -/
theorem Holds.idle (h : Holds s a) (hl : (a.accounts key).live = false) {c : Call}
    (hc : ∀ peer ans, c ≠ .open peer ans) :
    Holds (callState key c s) (stepAccounts a (.call key c)) := by
  have hs : callState key c s = s := by
    rcases h.get_idle hl with hget | hf
    · cases c <;>
        simp_all [callState, upstreamStateOnConnect, upstreamStateOnFirstByte,
          upstreamStateRecordReceived, upstreamStateAddBytesSent, upstreamStateAddBytesReceived,
          upstreamStateFinalize]
    · cases hget : upstreamStateGet (s.trackers key) s <;> cases c <;>
        simp_all [callState, upstreamStateOnConnect, upstreamStateOnFirstByte,
          upstreamStateRecordReceived, upstreamStateAddBytesSent, upstreamStateAddBytesReceived,
          upstreamStateFinalize]
  have ha : stepAccounts a (.call key c) = a := by
    cases c <;> simp_all [stepAccounts, Account.call, Accounts.makes]
  rw [hs, ha]
  exact h

/-- The array may be made before its first record. -/
theorem Holds.array (h : Holds s a) :
    Holds { s with states := some s.records } { a with made := true } where
  now := h.now
  made := rfl
  account := h.account
  owned := by
    obtain ⟨keys, ho⟩ := h.owned
    exact ⟨keys, ho.length, ho.owner, ho.fresh⟩

/-- The owners after a record is pushed for a tracker that was not open. -/
theorem Owned.push {keys : List Key} (h : Owned keys s) (hk : (s.trackers key).opened = false)
    {t : Tracker} (ht : t.opened = true) (hi : t.index = s.records.length) (r : UpstreamRecord) :
    Owned (keys ++ [key])
      (States.setTracker key t { s with states := some (s.records ++ [r]) }) where
  length := by
    simp [States.setTracker, States.records, h.length]
  owner key' i := by
    by_cases hkey : key' = key
    · subst hkey
      have hnot : ∀ j : Nat, keys[j]? ≠ some key' := by
        intro j hj
        have := ((h.owner key' j).mp hj).1
        simp [hk] at this
      rcases Nat.lt_trichotomy i keys.length with hlt | heq | hgt
      · rw [List.getElem?_append_left hlt]
        have hne : s.records.length ≠ i := by
          rw [← h.length]
          omega
        simp [States.setTracker, ht, hi, hne, hnot i]
      · subst heq
        simp [States.setTracker, ht, hi, h.length]
      · have hne : s.records.length ≠ i := by
          rw [← h.length]
          omega
        rw [List.getElem?_eq_none (by simp; omega)]
        simp [States.setTracker, hi, hne]
    · simp only [States.setTracker, Function.update_of_ne hkey]
      rw [← h.owner key' i]
      rcases Nat.lt_or_ge i keys.length with hlt | hge
      · rw [List.getElem?_append_left hlt]
      · rw [List.getElem?_eq_none hge, List.getElem?_append_right hge]
        cases hj : i - keys.length with
        | zero => simp [Ne.symm hkey]
        | succ j => simp
  fresh key' hf := by
    by_cases hkey : key' = key
    · subst hkey
      simp [States.setTracker, ht] at hf
    · simp only [States.setTracker, Function.update_of_ne hkey] at hf ⊢
      exact h.fresh key' hf

/-- A record is pushed for a tracker that was not open. -/
theorem Holds.push (h : Holds s a) (hm : a.made = true) (hk : (s.trackers key).opened = false)
    {t : Tracker} (ht : t.opened = true) (hi : t.index = s.records.length) (r : UpstreamRecord) :
    Holds (States.setTracker key t { s with states := some (s.records ++ [r]) })
      { a with
        accounts := Function.update a.accounts key
          { start := t.startTime, sent := t.bytesSent, received := t.bytesReceived
            opened := true, finalized := t.finalized, record := r } } := by
  obtain ⟨keys, hown⟩ := h.owned
  refine ⟨h.now, hm.symm, ?_, keys ++ [key], hown.push hk ht hi r⟩
  intro key'
  by_cases hkey : key' = key
  · subst hkey
    simp [States.account, States.setTracker, States.records, ht, hi]
  · simp only [Function.update_of_ne hkey]
    rw [← h.account key']
    cases ho : (s.trackers key').opened with
    | false => simp [States.account, States.setTracker, hkey, ho]
    | true =>
      have hlt := hown.index_lt ho
      rw [States.account_of_opened (by simpa [States.setTracker, hkey] using ho),
        States.account_of_opened ho]
      have hget : (s.records ++ [r])[(s.trackers key').index]? =
          s.records[(s.trackers key').index]? :=
        List.getElem?_append_left hlt
      simpa [States.setTracker, States.records, hkey] using congrArg (Option.getD · {}) hget

/-- A peer is copied when there is memory for it. -/
theorem upstreamStateCopyPeer_eq (peer : Bytes) (ans : OpenAnswers) :
    upstreamStateCopyPeer peer ans {} =
      if decide (peer.length = 0) || (ans.copy && ans.data) then some (openedRecord peer)
      else none := by
  unfold upstreamStateCopyPeer openedRecord
  cases ans.copy <;> cases ans.data <;> by_cases hp : peer.length = 0 <;> simp [hp]

theorem upstreamStatesArray_eq (ans : OpenAnswers) (s : States) :
    upstreamStatesArray ans s = if s.states.isSome || ans.array then some s.records else none := by
  cases hs : s.states <;> simp [upstreamStatesArray, States.records, hs]

/-- An account is opened, or only the array is made. -/
theorem Holds.open (h : Holds s a) (peer : Bytes) (ans : OpenAnswers) :
    Holds (callState key (.open peer ans) s) (stepAccounts a (.call key (.open peer ans))) := by
  simp only [callState, stepAccounts, Account.call, Accounts.makes, upstreamStateOpen, h.opened]
  cases hk : (s.trackers key).opened with
  | true => simpa using h
  | false =>
    obtain ⟨keys, hown⟩ := h.owned
    have hnow := h.now
    have hfresh := hown.fresh key hk
    rw [upstreamStatesArray_eq, h.made]
    cases harr : a.made || ans.array with
    | false =>
      have hno : ans.opens a.made peer = false := by
        rw [OpenAnswers.opens, harr]
        rfl
      have hn : ans.array = false := (Bool.or_eq_false_iff.mp harr).2
      simpa [hno, hn] using h
    | true =>
      have h1 : Holds { s with states := some s.records } { a with made := true } := h.array
      cases hpush : ans.push with
      | false =>
        have hno : ans.opens a.made peer = false := by
          rw [OpenAnswers.opens, harr, hpush]
          rfl
        simpa [hno, harr] using h1
      | true =>
        rw [upstreamStateCopyPeer_eq]
        cases hcopy : decide (peer.length = 0) || (ans.copy && ans.data) with
        | false =>
          have hno : ans.opens a.made peer = false := by
            rw [OpenAnswers.opens, harr, hpush, hcopy]
            rfl
          simpa [hno, harr] using h1
        | true =>
          have hyes : ans.opens a.made peer = true := by
            rw [OpenAnswers.opens, harr, hpush, hcopy]
            rfl
          have h2 := h1.push rfl hk (t := { index := s.records.length, startTime := s.now
                                            opened := true }) rfl rfl (openedRecord peer)
          simpa [hyes, harr, hfresh, hnow, States.records] using h2

/-- One step keeps the array and the accounts together. -/
theorem Holds.step (h : Holds s a) (op : Op) : Holds (stepState s op) (stepAccounts a op) := by
  cases op with
  | tick ms => exact ⟨congrArg (· + ms) h.now, h.made, h.account, h.owned.imp fun keys ho =>
      ⟨ho.length, ho.owner, ho.fresh⟩⟩
  | call key c =>
    by_cases hc : ∃ peer ans, c = .open peer ans
    · obtain ⟨peer, ans, rfl⟩ := hc
      exact h.open peer ans
    · have hc' : ∀ peer ans, c ≠ .open peer ans := fun peer ans he => hc ⟨peer, ans, he⟩
      cases hl : (a.accounts key).live with
      | true => exact h.live hl hc'
      | false => exact h.idle hl hc'

theorem holds_init : Holds {} {} where
  now := rfl
  made := rfl
  account _ := rfl
  owned := ⟨[], rfl, fun _ _ => by simp, fun _ _ => rfl⟩

theorem holds_foldl (ops : List Op) : ∀ {s : States} {a : Accounts}, Holds s a →
    Holds (ops.foldl stepState s) (ops.foldl stepAccounts a) := by
  induction ops with
  | nil => exact fun h => h
  | cons op ops ih => exact fun h => ih (h.step op)

/-- After every run the array holds the account of each open tracker at an index of its own, and
nothing else. -/
theorem run_accounts (ops : List Op) : Holds (runStates ops) (runAccounts ops) :=
  holds_foldl ops holds_init

/-- The milliseconds that pass in a run. -/
def clock : List Op → Nat
  | [] => 0
  | .tick ms :: ops => ms + clock ops
  | .call _ _ :: ops => clock ops

/-- When a tracker is first told of a call of some kind. -/
def since (kind : Call → Bool) (key : Key) : List Op → Option Nat
  | [] => none
  | .tick ms :: ops => (since kind key ops).map (ms + ·)
  | .call key' c :: ops => if key' = key ∧ kind c = true then some 0 else since kind key ops

/-- The sum of what the calls to a tracker count. -/
def total (count : Call → Int) (key : Key) : List Op → Int
  | [] => 0
  | .tick _ :: ops => total count key ops
  | .call key' c :: ops => (if key' = key then count c else 0) + total count key ops

def Call.connects : Call → Bool
  | .onConnect => true
  | _ => false

def Call.firstByte : Call → Bool
  | .onFirstByte => true
  | .recordReceived bytes => decide (0 < bytes)
  | _ => false

def Call.sent : Call → Int
  | .addBytesSent bytes => max bytes 0
  | _ => 0

def Call.received : Call → Int
  | .recordReceived bytes => max bytes 0
  | .addBytesReceived bytes => max bytes 0
  | _ => 0

/-- The record of what a tracker was told between its opening and its end. -/
def recordOf (key : Key) (peer : Bytes) (ops : List Op) : UpstreamRecord where
  peer := if peer.length = 0 then none else some peer
  connectTime := (since Call.connects key ops).getD msecUnset
  firstByteTime := (since Call.firstByte key ops).getD msecUnset
  responseTime := clock ops
  bytesSent := total Call.sent key ops
  bytesReceived := total Call.received key ops

@[simp] theorem clock_append (ops ops' : List Op) : clock (ops ++ ops') =
    clock ops + clock ops' := by
  induction ops with
  | nil => simp [clock]
  | cons op ops ih => cases op <;> simp [clock, ih, Nat.add_assoc]

theorem total_append (count : Call → Int) (ops ops' : List Op) :
    total count key (ops ++ ops') = total count key ops + total count key ops' := by
  induction ops with
  | nil => simp [total]
  | cons op ops ih => cases op <;> simp [total, ih, Int.add_assoc]

theorem since_append (kind : Call → Bool) (ops ops' : List Op) :
    since kind key (ops ++ ops') =
      (since kind key ops).or ((since kind key ops').map (clock ops + ·)) := by
  induction ops with
  | nil => simp [since, clock]
  | cons op ops ih =>
    cases op with
    | tick ms =>
      simp only [List.cons_append, since, clock, ih]
      cases since kind key ops <;> cases since kind key ops' <;> simp [Nat.add_assoc]
    | call key' c =>
      simp only [List.cons_append, since, clock, ih]
      split <;> simp

theorem since_le_clock (kind : Call → Bool) (ops : List Op) (t : Nat)
    (h : since kind key ops = some t) : t ≤ clock ops := by
  induction ops generalizing t with
  | nil => simp [since] at h
  | cons op ops ih =>
    cases op with
    | tick ms =>
      obtain ⟨u, hu, rfl⟩ := Option.map_eq_some_iff.mp h
      exact Nat.add_le_add_left (ih u hu) ms
    | call key' c =>
      simp only [since] at h
      split at h
      · simp [← Option.some.inj h]
      · exact ih t h

theorem elapsed_add {t d : Nat} (hd : d < msecUnset) : elapsed (t + d) t = d := by
  unfold elapsed msecUnset at *
  omega

/-- The account of a tracker that was told of `ops` since it was opened. -/
def accountOf (key : Key) (peer : Bytes) (start : Nat) (ops : List Op) : Account where
  start := start
  sent := total Call.sent key ops
  received := total Call.received key ops
  opened := true
  record := { recordOf key peer ops with
    responseTime := msecUnset, bytesSent := 0, bytesReceived := 0 }

theorem accountOf_live (key : Key) (peer : Bytes) (start : Nat) (ops : List Op) :
    (accountOf key peer start ops).live = true := rfl

theorem since_call (kind : Call → Bool) (key' : Key) (c : Call) (ops : List Op) :
    since kind key (ops ++ [.call key' c]) =
      (since kind key ops).or (if key' = key ∧ kind c = true then some (clock ops) else none) := by
  rw [since_append]
  simp only [since]
  split <;> simp

/-- A time that is not set yet takes the time of the call. -/
theorem since_set (key : Key) (kind : Call → Bool) {ops : List Op} (hd : clock ops < msecUnset) :
    (if (since kind key ops).getD msecUnset = msecUnset then clock ops
      else (since kind key ops).getD msecUnset) =
      ((since kind key ops).or (some (clock ops))).getD msecUnset := by
  cases hs : since kind key ops with
  | none => simp
  | some t =>
    have hne : t ≠ msecUnset := by
      have := since_le_clock kind ops t hs
      omega
    simp [hne]

/-- A live account is told of one call more. -/
theorem accountOf_call (key : Key) (peer : Bytes) (start : Nat) (ops : List Op) (made : Bool)
    (c : Call) (hd : clock ops < msecUnset) (hc : c ≠ .finalize) :
    (accountOf key peer start ops).call (start + clock ops) made c =
      accountOf key peer start (ops ++ [.call key c]) := by
  have hl := accountOf_live key peer start ops
  have he : elapsed (start + clock ops) (accountOf key peer start ops).start = clock ops :=
    elapsed_add hd
  cases c with
  | «open» peer' ans =>
    simp [Account.call, accountOf, recordOf, total_append, total, since_call, Call.connects,
      Call.firstByte, Call.sent, Call.received]
  | onConnect =>
    have hset := since_set key Call.connects hd
    simp only [Account.call, hl, if_true, he]
    simp [accountOf, recordOf, total_append, total, since_call, Call.connects, Call.firstByte,
      Call.sent, Call.received, UpstreamRecord.connected, hset]
  | onFirstByte =>
    have hset := since_set key Call.firstByte hd
    simp only [Account.call, hl, if_true, he]
    simp [accountOf, recordOf, total_append, total, since_call, Call.connects, Call.firstByte,
      Call.sent, Call.received, UpstreamRecord.firstByte, hset]
  | recordReceived bytes =>
    have hset := since_set key Call.firstByte hd
    by_cases hp : 0 < bytes
    · simp only [Account.call, hl, hp, and_self, if_true, he]
      simp [accountOf, recordOf, total_append, total, since_call, Call.connects, Call.firstByte,
        Call.sent, Call.received, UpstreamRecord.firstByte, hset, hp, max_eq_left hp.le]
    · simp only [Account.call, hp, false_and, if_false]
      simp [accountOf, recordOf, total_append, total, since_call, Call.connects, Call.firstByte,
        Call.sent, Call.received, hp, max_eq_right (not_lt.mp hp)]
  | addBytesSent bytes =>
    by_cases hp : 0 < bytes
    · simp only [Account.call, hl, hp, and_self, if_true]
      simp [accountOf, recordOf, total_append, total, since_call, Call.connects, Call.firstByte,
        Call.sent, Call.received, max_eq_left hp.le]
    · simp only [Account.call, hp, false_and, if_false]
      simp [accountOf, recordOf, total_append, total, since_call, Call.connects, Call.firstByte,
        Call.sent, Call.received, max_eq_right (not_lt.mp hp)]
  | addBytesReceived bytes =>
    by_cases hp : 0 < bytes
    · simp only [Account.call, hl, hp, and_self, if_true]
      simp [accountOf, recordOf, total_append, total, since_call, Call.connects, Call.firstByte,
        Call.sent, Call.received, max_eq_left hp.le]
    · simp only [Account.call, hp, false_and, if_false]
      simp [accountOf, recordOf, total_append, total, since_call, Call.connects, Call.firstByte,
        Call.sent, Call.received, max_eq_right (not_lt.mp hp)]
  | finalize => exact absurd rfl hc

/-- The calls to other trackers leave an account alone. -/
theorem stepAccounts_other {key' : Key} (hk : key' ≠ key) (c : Call) :
    (stepAccounts a (.call key' c)).accounts key = a.accounts key := by
  simp [stepAccounts, Ne.symm hk]

theorem runAccounts_now (ops : List Op) (a : Accounts) :
    (ops.foldl stepAccounts a).now = a.now + clock ops := by
  induction ops generalizing a with
  | nil => simp [clock]
  | cons op ops ih =>
    rw [List.foldl_cons, ih]
    cases op <;> simp [stepAccounts, clock, Nat.add_assoc]

/-- An account that is not settled is that of the calls it was told of. -/
theorem foldl_accountOf (peer : Bytes) (start : Nat) (ops : List Op) (a : Accounts)
    (hstart : a.now = start) (ha : a.accounts key = accountOf key peer start [])
    (hd : clock ops < msecUnset) (hf : Op.call key .finalize ∉ ops) :
    (ops.foldl stepAccounts a).accounts key = accountOf key peer start ops := by
  induction ops using List.reverseRecOn with
  | nil => exact ha
  | append_singleton ops op ih =>
    have hdo : clock ops < msecUnset := by
      rw [clock_append] at hd
      omega
    have hfo : Op.call key .finalize ∉ ops := fun hm => hf (List.mem_append_left _ hm)
    have hacc := ih hdo hfo
    rw [List.foldl_append, List.foldl_cons, List.foldl_nil]
    cases op with
    | tick ms =>
      have hsame : accountOf key peer start (ops ++ [.tick ms]) = accountOf key peer start ops := by
        simp [accountOf, recordOf, total_append, total, since_append, since]
      rw [hsame]
      exact hacc
    | call key' c =>
      by_cases hk : key' = key
      · subst hk
        have hc : c ≠ .finalize := by
          rintro rfl
          exact hf (by simp)
        rw [stepAccounts]
        simp only [Function.update_self]
        rw [hacc, runAccounts_now, hstart]
        exact accountOf_call key' peer start ops _ c hdo hc
      · rw [stepAccounts_other hk, hacc]
        simp [accountOf, recordOf, total_append, total, since_call, hk]

/-- A settled account stays as it is. -/
theorem foldl_settled (ops : List Op) (a : Accounts) (ho : (a.accounts key).opened = true)
    (hf : (a.accounts key).finalized = true) :
    (ops.foldl stepAccounts a).accounts key = a.accounts key := by
  induction ops generalizing a with
  | nil => rfl
  | cons op ops ih =>
    have hstep : (stepAccounts a op).accounts key = a.accounts key := by
      cases op with
      | tick ms => rfl
      | call key' c =>
        by_cases hk : key' = key
        · subst hk
          cases c <;> simp [stepAccounts, Account.call, Account.live, ho, hf]
        · exact stepAccounts_other hk c
    rw [List.foldl_cons, ih _ (hstep ▸ ho) (hstep ▸ hf), hstep]

/-- Opening succeeds when there is memory for it. -/
theorem Holds.open_ok (h : Holds s a) (hk : (s.trackers key).opened = false) (peer : Bytes)
    (ans : OpenAnswers) :
    (upstreamStateOpen key peer ans s).1 = .ok ↔ ans.opens a.made peer = true := by
  simp only [upstreamStateOpen, hk, upstreamStatesArray_eq, h.made, upstreamStateCopyPeer_eq,
    OpenAnswers.opens]
  cases a.made || ans.array <;> cases ans.push <;>
    cases decide (peer.length = 0) || (ans.copy && ans.data) <;> simp

/-- The record of a tracker that was opened and settled holds, for good, what the tracker was told
in between: every byte once, the first times, and the time it was open. -/
theorem settled_record (pre mid post : List Op) (key : Key) (peer : Bytes) (ans : OpenAnswers)
    (hclosed : ((runStates pre).trackers key).opened = false)
    (hopen : (upstreamStateOpen key peer ans (runStates pre)).1 = .ok)
    (hmid : Op.call key .finalize ∉ mid) (hclock : clock mid < msecUnset) :
    let s := runStates (pre ++ .call key (.open peer ans) :: (mid ++ .call key .finalize :: post))
    s.records[(s.trackers key).index]? = some (recordOf key peer mid) := by
  intro s
  have hpre := run_accounts pre
  have hopens := (hpre.open_ok hclosed peer ans).mp hopen
  have hao : ((runAccounts pre).accounts key).opened = false := hpre.opened.trans hclosed
  -- the account as it is opened, as it is settled, and after the calls that follow
  let a1 := stepAccounts (runAccounts pre) (.call key (.open peer ans))
  let a2 := mid.foldl stepAccounts a1
  let a3 := stepAccounts a2 (.call key .finalize)
  have h1 : a1.accounts key = accountOf key peer (runAccounts pre).now [] := by
    simp [a1, stepAccounts, Account.call, hao, hopens, accountOf, recordOf, openedRecord, total,
      since]
  have h2 : a2.accounts key = accountOf key peer (runAccounts pre).now mid :=
    foldl_accountOf peer _ mid a1 rfl h1 hclock hmid
  have hnow : a2.now = (runAccounts pre).now + clock mid := runAccounts_now mid a1
  have h3 : a3.accounts key =
      { accountOf key peer (runAccounts pre).now mid with
        finalized := true, record := recordOf key peer mid } := by
    have he : elapsed ((runAccounts pre).now + clock mid) (runAccounts pre).now = clock mid :=
      elapsed_add hclock
    simp [a3, stepAccounts, h2, hnow, Account.call, Account.live, accountOf, recordOf, he]
  have h4 : (post.foldl stepAccounts a3).accounts key = a3.accounts key :=
    foldl_settled post a3 (by rw [h3]; rfl) (by rw [h3])
  have hrun : runAccounts
      (pre ++ .call key (.open peer ans) :: (mid ++ .call key .finalize :: post)) =
        post.foldl stepAccounts a3 := by
    simp [runAccounts, a3, a2, a1]
  have hs := run_accounts
    (pre ++ .call key (.open peer ans) :: (mid ++ .call key .finalize :: post))
  have hacc := (hs.account key).trans (by rw [hrun, h4, h3])
  have hopened : (s.trackers key).opened = true := congrArg Account.opened hacc
  obtain ⟨keys, hown⟩ := hs.owned
  have hlt := hown.index_lt hopened
  rw [States.account_of_opened hopened] at hacc
  have hrecord := congrArg Account.record hacc
  have hget : s.records[(s.trackers key).index]? = some (s.records.get ⟨_, hlt⟩) :=
    List.getElem?_eq_getElem hlt
  rw [hget]
  simpa [List.getD_eq_getElem?_getD, hget] using hrecord

/-- A relay is connected and sends, while a stream is opened and closed. -/
theorem settled_record_sample :
    let s := runStates ([.tick 5] ++ .call none (.open [1] {}) ::
      ([.tick 2, .call (some 7) (.open [] {}), .call none .onConnect, .tick 3,
        .call none (.addBytesSent 9)] ++
        .call none .finalize :: [.call none (.addBytesSent 4), .call (some 7) .finalize]))
    s.records[(s.trackers none).index]? =
      some (recordOf none [1] [.tick 2, .call (some 7) (.open [] {}), .call none .onConnect,
        .tick 3, .call none (.addBytesSent 9)]) :=
  settled_record [.tick 5] _ [.call none (.addBytesSent 4), .call (some 7) .finalize] none [1] {}
    (by decide) (by decide) (by decide) (by decide)

end NgxAnytls.UpstreamState
