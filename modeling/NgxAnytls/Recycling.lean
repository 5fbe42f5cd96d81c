import NgxAnytls.Library.FreeList
import NgxAnytls.Library.Watchdog
import NgxAnytls.Session

/-! The recycling of output frames, of read buffers and of pending payload: four kinds of free lists
with hand-kept counters (`ngx_anytls_client_mux.c`, `ngx_anytls_upstream.c`). Frames and buffers are
numbers here, in the order in which they are allocated; each result of an allocation and of the
guards is an argument. -/

namespace NgxAnytls.Recycling

open Library.FreeList Library.Watchdog

def maxFreeFrames : Nat := 1024
def maxFreeReadBufs : Nat := 32
def maxFreePendingIn : Nat := 64
def smallReadBufCapacity : Nat := 16384

/-- A queued frame: its stream, and the read buffer that goes back with it. -/
structure PooledFrame where
  frame : Nat
  stream : Option Handle
  payload : Option Nat
  deriving DecidableEq, Repr

/-- A pending record of a stream and its buffer. -/
structure PooledPending where
  stream : Handle
  record : Nat
  data : Nat
  deriving DecidableEq, Repr

structure Pools where
  freeFrames : List Nat := []
  freeFramesCount : Nat := 0
  nextFrame : Nat := 0
  freeReadBufs : List Nat := []
  freeReadBufsLarge : List Nat := []
  freeReadBufsCount : Nat := 0
  readCapacity : Nat → Nat := fun _ => 0
  nextReadBuf : Nat := 0
  freePendingBufs : List Nat := []
  freePendingBufsCount : Nat := 0
  pendingCap : Nat → Nat := fun _ => 0
  nextPendingBuf : Nat := 0
  freePendingIn : Handle → List Nat := fun _ => []
  freePendingInCount : Handle → Nat := fun _ => 0
  nextRecord : Nat := 0
  /-- The frames on the streams' own lists. -/
  streamOut : List PooledFrame := []
  /-- The frames on the lists of the session. -/
  sessionOut : List PooledFrame := []
  /-- The read buffers handed out for a read that is not over. -/
  reading : List Nat := []
  pending : List PooledPending := []

/-- `ngx_anytls_get_frame`. -/
def getFrame (ok : Bool) (p : Pools) : Option Nat × Pools :=
  match p.freeFrames with
  | f :: fs =>
    (some f, { p with freeFrames := fs, freeFramesCount := countDown p.freeFramesCount })
  | [] => if ok then (some p.nextFrame, { p with nextFrame := p.nextFrame + 1 }) else (none, p)

/-- `ngx_anytls_free_frame`. -/
def freeFrame (f : Nat) (p : Pools) : Pools :=
  if p.freeFramesCount < maxFreeFrames then
    { p with freeFrames := f :: p.freeFrames, freeFramesCount := countUp p.freeFramesCount }
  else p

/-- `ngx_anytls_upstream_pop_read_buf`. -/
def popReadBuf (large : Bool) (capacity : Nat) (p : Pools) : Option Nat × Pools :=
  if large then
    match takeFirst (fun cl => capacity ≤ p.readCapacity cl) p.freeReadBufsLarge with
    | none => (none, p)
    | some (cl, rest) =>
      (some cl, { p with
        freeReadBufsLarge := rest, freeReadBufsCount := countDown p.freeReadBufsCount })
  else
    match takeFirst (fun cl => capacity ≤ p.readCapacity cl) p.freeReadBufs with
    | none => (none, p)
    | some (cl, rest) =>
      (some cl, { p with
        freeReadBufs := rest, freeReadBufsCount := countDown p.freeReadBufsCount })

def newReadBuf (capacity : Nat) (p : Pools) : Pools :=
  { p with
    nextReadBuf := p.nextReadBuf + 1
    readCapacity := Function.update p.readCapacity p.nextReadBuf capacity }

/-- `ngx_anytls_upstream_get_read_buf`: the other list serves only when one of the three
allocations fails. -/
def getReadBuf (size : Nat) (clOk bufOk startOk : Bool) (p : Pools) : Option Nat × Pools :=
  let capacity := size + frameHeaderLen
  let large := !decide (capacity ≤ smallReadBufCapacity)
  let r := popReadBuf large capacity p
  if r.1.isSome then r
  else if !clOk then popReadBuf (!large) capacity r.2
  else if !bufOk then popReadBuf (!large) capacity r.2
  else if !startOk then popReadBuf (!large) capacity r.2
  else (some r.2.nextReadBuf, newReadBuf capacity r.2)

/-- `ngx_anytls_upstream_free_read_buf`. -/
def freeReadBuf (cl : Nat) (p : Pools) : Pools :=
  if p.freeReadBufsCount < maxFreeReadBufs then
    if p.readCapacity cl ≤ smallReadBufCapacity then
      { p with
        freeReadBufs := cl :: p.freeReadBufs, freeReadBufsCount := countUp p.freeReadBufsCount }
    else
      { p with
        freeReadBufsLarge := cl :: p.freeReadBufsLarge
        freeReadBufsCount := countUp p.freeReadBufsCount }
  else p

/-- `ngx_anytls_upstream_alloc_pending_buf`. -/
def allocPendingBuf (len : Nat) (ok : Bool) (p : Pools) : Option Nat × Pools :=
  match takeFirst (fun hdr => len ≤ p.pendingCap hdr) p.freePendingBufs with
  | some (hdr, rest) =>
    (some hdr, { p with
      freePendingBufs := rest, freePendingBufsCount := countDown p.freePendingBufsCount })
  | none =>
    if !ok then (none, p)
    else
      (some p.nextPendingBuf, { p with
        nextPendingBuf := p.nextPendingBuf + 1
        pendingCap := Function.update p.pendingCap p.nextPendingBuf len })

/-- `ngx_anytls_upstream_free_pending_buf`. -/
def freePendingBuf (hdr : Nat) (p : Pools) : Pools :=
  if p.freePendingBufsCount < maxFreePendingIn then
    { p with
      freePendingBufs := hdr :: p.freePendingBufs
      freePendingBufsCount := countUp p.freePendingBufsCount }
  else p

/-- The record of `ngx_anytls_upstream_free_pending`, back on the list of its stream. -/
def freeRecord (h : Handle) (r : Nat) (p : Pools) : Pools :=
  if p.freePendingInCount h < maxFreePendingIn then
    { p with
      freePendingIn := Function.update p.freePendingIn h (r :: p.freePendingIn h)
      freePendingInCount :=
        Function.update p.freePendingInCount h (countUp (p.freePendingInCount h)) }
  else p

/-- `ngx_anytls_upstream_free_pending`. -/
def freePending (e : PooledPending) (p : Pools) : Pools :=
  freeRecord e.stream e.record (freePendingBuf e.data p)

/-- The record that `ngx_anytls_upstream_queue` takes. -/
def getRecord (h : Handle) (ok : Bool) (p : Pools) : Option Nat × Pools :=
  match p.freePendingIn h with
  | r :: rs =>
    (some r, { p with
      freePendingIn := Function.update p.freePendingIn h rs
      freePendingInCount :=
        Function.update p.freePendingInCount h (countDown (p.freePendingInCount h)) })
  | [] => if ok then (some p.nextRecord, { p with nextRecord := p.nextRecord + 1 }) else (none, p)

/-- The record goes back after its buffer could not be allocated: the counter stays. -/
def putBackRecord (h : Handle) (r : Nat) (p : Pools) : Pools :=
  { p with freePendingIn := Function.update p.freePendingIn h (r :: p.freePendingIn h) }

/-- Everything in the module that hands out, moves or gives back a frame or a buffer. -/
inductive PoolOp where
  | queueFrame (st : Option Handle) (frameOk dataOk accepted own : Bool)
  | queueChainFrame (h : Handle) (cl : Nat) (frameOk accepted own : Bool)
  | scheduleFrame (f : Nat)
  | frameHandler (f : Nat)
  | dropOut (h : Handle)
  | startRead (size : Nat) (clOk bufOk startOk : Bool)
  | endRead (cl : Nat)
  | upstreamQueue (h : Handle) (len : Nat) (recordOk dataOk : Bool)
  | pendingSent (h : Handle)
  | discardPending (h : Handle)
  deriving Repr

/-- `ngx_anytls_queue_prepared_frame`, with the answer of its guards. -/
def pushFrame (f : PooledFrame) (accepted own : Bool) (p : Pools) : Bool × Pools :=
  if !accepted then (false, freeFrame f.frame p)
  else if own then (true, { p with streamOut := p.streamOut ++ [f] })
  else (true, { p with sessionOut := p.sessionOut ++ [f] })

/-- The payload of a frame of a stream goes back. -/
def freePayload (f : PooledFrame) (p : Pools) : Pools :=
  match f.payload with
  | some cl => if f.stream.isSome then freeReadBuf cl p else p
  | none => p

/-- `ngx_anytls_client_mux_queue_frame` and `ngx_anytls_client_mux_queue_ref_frame`. -/
def queueFrame (st : Option Handle) (frameOk dataOk accepted own : Bool) (p : Pools) : Pools :=
  match getFrame frameOk p with
  | (none, p) => p
  | (some f, p) =>
    if !dataOk then freeFrame f p
    else (pushFrame { frame := f, stream := st, payload := none } accepted own p).2

/-- The read goes on with the buffer. -/
def keepReading (cl : Nat) (p : Pools) : Pools := { p with reading := cl :: p.reading }

/-- `ngx_anytls_client_mux_queue_chain_frame`: the buffer is the frame's when it is queued, and else
the caller's. -/
def queueChainFrame (h : Handle) (cl : Nat) (frameOk accepted own : Bool) (p : Pools) : Pools :=
  match takeFirst (fun b => b == cl) p.reading with
  | none => p
  | some (cl, rest) =>
    match getFrame frameOk { p with reading := rest } with
    | (none, p) => keepReading cl p
    | (some f, p) =>
      let r := pushFrame { frame := f, stream := some h, payload := some cl } accepted own p
      if r.1 then r.2 else keepReading cl r.2

def scheduleFrame (f : Nat) (p : Pools) : Pools :=
  match takeFirst (fun e : PooledFrame => e.frame == f) p.streamOut with
  | none => p
  | some (e, rest) => { p with streamOut := rest, sessionOut := p.sessionOut ++ [e] }

/-- `ngx_anytls_default_frame_handler`. -/
def frameHandler (f : Nat) (p : Pools) : Pools :=
  match takeFirst (fun e : PooledFrame => e.frame == f) p.sessionOut with
  | none => p
  | some (e, rest) => freeFrame e.frame (freePayload e { p with sessionOut := rest })

/-- The stream's own frames in `ngx_anytls_stream_close`: their buffers go back. -/
def dropOut (h : Handle) (p : Pools) : Pools :=
  let drop := p.streamOut.filter fun e => e.stream == some h
  drop.foldl (fun p e => freePayload e p)
    { p with streamOut := p.streamOut.filter fun e => !(e.stream == some h) }

/-- A read begins with a buffer. -/
def startRead (size : Nat) (clOk bufOk startOk : Bool) (p : Pools) : Pools :=
  match getReadBuf size clOk bufOk startOk p with
  | (none, p) => p
  | (some cl, p) => keepReading cl p

/-- A read ends with its buffer given back. -/
def endRead (cl : Nat) (p : Pools) : Pools :=
  match takeFirst (fun b => b == cl) p.reading with
  | none => p
  | some (cl, rest) => freeReadBuf cl { p with reading := rest }

/-- The record and its buffer in `ngx_anytls_upstream_queue`. -/
def upstreamQueue (h : Handle) (len : Nat) (recordOk dataOk : Bool) (p : Pools) : Pools :=
  match getRecord h recordOk p with
  | (none, p) => p
  | (some r, p) =>
    match allocPendingBuf len dataOk p with
    | (none, p) => putBackRecord h r p
    | (some hdr, p) =>
      { p with pending := p.pending ++ [{ stream := h, record := r, data := hdr }] }

/-- The head of the backlog is sent. -/
def pendingSent (h : Handle) (p : Pools) : Pools :=
  match takeFirst (fun e : PooledPending => e.stream == h) p.pending with
  | none => p
  | some (e, rest) => freePending e { p with pending := rest }

/-- `ngx_anytls_upstream_discard_pending`. -/
def discardPending (h : Handle) (p : Pools) : Pools :=
  let drop := p.pending.filter fun e => e.stream == h
  drop.foldl (fun p e => freePendingBuf e.data p)
    { p with pending := p.pending.filter fun e => !(e.stream == h) }

def poolStep (p : Pools) : PoolOp → Pools
  | .queueFrame st frameOk dataOk accepted own => queueFrame st frameOk dataOk accepted own p
  | .queueChainFrame h cl frameOk accepted own => queueChainFrame h cl frameOk accepted own p
  | .scheduleFrame f => scheduleFrame f p
  | .frameHandler f => frameHandler f p
  | .dropOut h => dropOut h p
  | .startRead size clOk bufOk startOk => startRead size clOk bufOk startOk p
  | .endRead cl => endRead cl p
  | .upstreamQueue h len recordOk dataOk => upstreamQueue h len recordOk dataOk p
  | .pendingSent h => pendingSent h p
  | .discardPending h => discardPending h p

def runPools (ops : List PoolOp) : Pools := ops.foldl poolStep {}

/-- What the function that runs has in its hands, on no list. -/
structure Hand where
  frames : List Nat := []
  bufs : List Nat := []
  data : List Nat := []
  records : Handle → List Nat := fun _ => []

namespace Pools

def queued (p : Pools) : List PooledFrame := p.streamOut ++ p.sessionOut

def frames (p : Pools) : List Nat := p.queued.map PooledFrame.frame
def bufs (p : Pools) : List Nat := p.reading ++ p.queued.filterMap PooledFrame.payload
def data (p : Pools) : List Nat := p.pending.map PooledPending.data
def records (p : Pools) (h : Handle) : List Nat :=
  (p.pending.filter fun e => e.stream == h).map PooledPending.record

/-- The counters are the lengths of the free lists, and everything that was allocated and not given
up is in one place. -/
structure Held (hand : Hand) (p : Pools) : Prop where
  frames : Tracked maxFreeFrames p.freeFramesCount p.freeFrames
    (hand.frames ++ p.frames) p.nextFrame
  bufs : Tracked maxFreeReadBufs p.freeReadBufsCount (p.freeReadBufs ++ p.freeReadBufsLarge)
    (hand.bufs ++ p.bufs) p.nextReadBuf
  data : Tracked maxFreePendingIn p.freePendingBufsCount p.freePendingBufs (hand.data ++ p.data)
    p.nextPendingBuf
  records : ∀ h, Tracked maxFreePendingIn (p.freePendingInCount h) (p.freePendingIn h)
    (hand.records h ++ p.records h) p.nextRecord

end Pools

variable {p : Pools} {hand : Hand}

open Pools

theorem getFrame_held (ok : Bool) (hp : p.Held hand) :
    (∃ f, (getFrame ok p).1 = some f ∧
        (getFrame ok p).2.Held { hand with frames := f :: hand.frames }) ∨
      ((getFrame ok p).1 = none ∧ (getFrame ok p).2.Held hand) := by
  have hframes := hp.frames
  unfold getFrame
  cases hfree : p.freeFrames with
  | cons f fs =>
    rw [hfree] at hframes
    exact .inl ⟨f, rfl, { hp with frames := hframes.take (.refl _) (by decide) }⟩
  | nil =>
    rw [hfree] at hframes
    cases ok with
    | false => exact .inr ⟨rfl, hp⟩
    | true => exact .inl ⟨p.nextFrame, rfl, { hp with frames := hframes.make }⟩

theorem freeFrame_held (f : Nat) (hp : p.Held { hand with frames := f :: hand.frames }) :
    (freeFrame f p).Held hand := by
  unfold freeFrame
  split_ifs with hroom
  · exact { hp with frames := hp.frames.giveBack hroom (by decide) }
  · exact { hp with frames := hp.frames.giveUp }

theorem popReadBuf_held (large : Bool) (capacity : Nat) (hp : p.Held hand) :
    (∃ cl, (popReadBuf large capacity p).1 = some cl ∧
        (popReadBuf large capacity p).2.Held { hand with bufs := cl :: hand.bufs }) ∨
      ((popReadBuf large capacity p).1 = none ∧ (popReadBuf large capacity p).2 = p) := by
  unfold popReadBuf
  cases large with
  | true =>
    rw [if_pos rfl]
    cases ht : takeFirst (fun cl => capacity ≤ p.readCapacity cl) p.freeReadBufsLarge with
    | none => exact .inr ⟨rfl, rfl⟩
    | some r =>
      obtain ⟨cl, rest⟩ := r
      have hperm : (p.freeReadBufs ++ p.freeReadBufsLarge).Perm
          (cl :: (p.freeReadBufs ++ rest)) :=
        ((takeFirst_perm ht).append_left _).trans List.perm_middle
      exact .inl ⟨cl, rfl, { hp with bufs := hp.bufs.take hperm (by decide) }⟩
  | false =>
    rw [if_neg (by decide)]
    cases ht : takeFirst (fun cl => capacity ≤ p.readCapacity cl) p.freeReadBufs with
    | none => exact .inr ⟨rfl, rfl⟩
    | some r =>
      obtain ⟨cl, rest⟩ := r
      have hperm : (p.freeReadBufs ++ p.freeReadBufsLarge).Perm
          (cl :: (rest ++ p.freeReadBufsLarge)) := (takeFirst_perm ht).append_right _
      exact .inl ⟨cl, rfl, { hp with bufs := hp.bufs.take hperm (by decide) }⟩

theorem getReadBuf_held (size : Nat) (clOk bufOk startOk : Bool) (hp : p.Held hand) :
    (∃ cl, (getReadBuf size clOk bufOk startOk p).1 = some cl ∧
        (getReadBuf size clOk bufOk startOk p).2.Held { hand with bufs := cl :: hand.bufs }) ∨
      ((getReadBuf size clOk bufOk startOk p).1 = none ∧
        (getReadBuf size clOk bufOk startOk p).2 = p) := by
  unfold getReadBuf
  dsimp only
  generalize hlarge : (!decide (size + frameHeaderLen ≤ smallReadBufCapacity)) = large
  have hfirst := popReadBuf_held large (size + frameHeaderLen) hp
  have hother := popReadBuf_held (!large) (size + frameHeaderLen) hp
  rcases hfirst with ⟨cl, hsome, hheld⟩ | ⟨hnone, hsame⟩
  · rw [if_pos (by rw [hsome]; rfl)]
    exact .inl ⟨cl, hsome, hheld⟩
  · rw [if_neg (by rw [hnone]; simp), hsame]
    split_ifs
    · exact hother
    · exact hother
    · exact hother
    · exact .inl ⟨p.nextReadBuf, rfl, { hp with bufs := hp.bufs.make }⟩

theorem freeReadBuf_held (cl : Nat) (hp : p.Held { hand with bufs := cl :: hand.bufs }) :
    (freeReadBuf cl p).Held hand := by
  unfold freeReadBuf
  split_ifs with hroom hsmall
  · exact { hp with bufs := hp.bufs.giveBack hroom (by decide) }
  · exact { hp with
      bufs := (hp.bufs.giveBack hroom (by decide)).perm List.perm_middle.symm }
  · exact { hp with bufs := hp.bufs.giveUp }

theorem allocPendingBuf_held (len : Nat) (ok : Bool) (hp : p.Held hand) :
    (∃ hdr, (allocPendingBuf len ok p).1 = some hdr ∧
        (allocPendingBuf len ok p).2.Held { hand with data := hdr :: hand.data }) ∨
      ((allocPendingBuf len ok p).1 = none ∧ (allocPendingBuf len ok p).2 = p) := by
  unfold allocPendingBuf
  cases ht : takeFirst (fun hdr => len ≤ p.pendingCap hdr) p.freePendingBufs with
  | some r =>
    obtain ⟨hdr, rest⟩ := r
    exact .inl ⟨hdr, rfl, { hp with data := hp.data.take (takeFirst_perm ht) (by decide) }⟩
  | none =>
    cases ok with
    | false => exact .inr ⟨rfl, rfl⟩
    | true => exact .inl ⟨p.nextPendingBuf, rfl, { hp with data := hp.data.make }⟩

theorem freePendingBuf_held (hdr : Nat) (hp : p.Held { hand with data := hdr :: hand.data }) :
    (freePendingBuf hdr p).Held hand := by
  unfold freePendingBuf
  split_ifs with hroom
  · exact { hp with data := hp.data.giveBack hroom (by decide) }
  · exact { hp with data := hp.data.giveUp }

/-- A record of a stream in the hands of a function. -/
def Hand.take (hand : Hand) (h : Handle) (r : Nat) : Hand :=
  { hand with records := Function.update hand.records h (r :: hand.records h) }

theorem getRecord_held (h : Handle) (ok : Bool) (hp : p.Held hand) :
    (∃ r, (getRecord h ok p).1 = some r ∧ (getRecord h ok p).2.Held (hand.take h r)) ∨
      ((getRecord h ok p).1 = none ∧ (getRecord h ok p).2.Held hand) := by
  unfold getRecord
  cases hfree : p.freePendingIn h with
  | cons r rs =>
    refine .inl ⟨r, rfl, { hp with records := fun g => ?_ }⟩
    have hrecords := hp.records g
    by_cases hg : g = h
    · subst hg
      rw [hfree] at hrecords
      simpa [Hand.take, Pools.records] using hrecords.take (.refl _) (by decide)
    · simpa [Hand.take, Pools.records, hg] using hrecords
  | nil =>
    cases ok with
    | false => exact .inr ⟨rfl, hp⟩
    | true =>
      refine .inl ⟨p.nextRecord, rfl, { hp with records := fun g => ?_ }⟩
      have hrecords := hp.records g
      by_cases hg : g = h
      · subst hg
        simpa [Hand.take, Pools.records] using hrecords.make
      · simpa [Hand.take, Pools.records, hg] using hrecords.later (Nat.le_succ _)

theorem freeRecord_held (h : Handle) (r : Nat) (hp : p.Held (hand.take h r)) :
    (freeRecord h r p).Held hand := by
  unfold freeRecord
  split_ifs with hroom
  · refine { hp with records := fun g => ?_ }
    have hrecords := hp.records g
    by_cases hg : g = h
    · subst hg
      simp only [Hand.take, Function.update_self] at hrecords
      simpa [Pools.records] using hrecords.giveBack hroom (by decide)
    · simpa [Hand.take, Pools.records, hg] using hrecords
  · refine { hp with records := fun g => ?_ }
    have hrecords := hp.records g
    by_cases hg : g = h
    · subst hg
      simp only [Hand.take, Function.update_self] at hrecords
      exact hrecords.giveUp
    · simpa [Hand.take, Pools.records, hg] using hrecords

/-- The frames and buffers of the queues only move. -/
theorem Pools.Held.requeue {q : Pools} {hand' : Hand} (hp : p.Held hand)
    (hq : q = { p with streamOut := q.streamOut, sessionOut := q.sessionOut, reading := q.reading })
    (hand_data : hand'.data = hand.data) (hand_records : hand'.records = hand.records)
    (hframes : ∀ x, (hand'.frames ++ q.frames).count x ≤ (hand.frames ++ p.frames).count x)
    (hbufs : ∀ x, (hand'.bufs ++ q.bufs).count x ≤ (hand.bufs ++ p.bufs).count x) :
    q.Held hand' := by
  rw [hq] at hframes hbufs ⊢
  refine ⟨hp.frames.move hframes, hp.bufs.move hbufs, ?_, ?_⟩
  · rw [hand_data]
    exact hp.data
  · rw [hand_records]
    exact hp.records

theorem filterMap_payload (e : PooledFrame) (es : List PooledFrame) :
    (e :: es).filterMap PooledFrame.payload =
      e.payload.toList ++ es.filterMap PooledFrame.payload := by
  cases hpay : e.payload <;> simp [hpay]

theorem pushFrame_held (f : PooledFrame) (accepted own : Bool)
    (hp : p.Held { hand with
      frames := f.frame :: hand.frames, bufs := f.payload.toList ++ hand.bufs }) :
    ((pushFrame f accepted own p).1 = true ∧ (pushFrame f accepted own p).2.Held hand) ∨
      ((pushFrame f accepted own p).1 = false ∧ (pushFrame f accepted own p).2.Held
        { hand with bufs := f.payload.toList ++ hand.bufs }) := by
  unfold pushFrame
  split_ifs with hno hown
  · exact .inr ⟨rfl, freeFrame_held f.frame hp⟩
  · refine .inl ⟨rfl, hp.requeue rfl rfl rfl (fun x => ?_) fun x => ?_⟩
    · simp [Pools.frames, Pools.queued, List.count_append, List.count_cons]
      omega
    · simp only [Pools.bufs, Pools.queued, List.filterMap_append, filterMap_payload,
        List.filterMap_nil, List.count_append, List.count_nil]
      omega
  · refine .inl ⟨rfl, hp.requeue rfl rfl rfl (fun x => ?_) fun x => ?_⟩
    · simp [Pools.frames, Pools.queued, List.count_append, List.count_cons]
      omega
    · simp only [Pools.bufs, Pools.queued, List.filterMap_append, filterMap_payload,
        List.filterMap_nil, List.count_append, List.count_nil]
      omega

theorem freePayload_held (f : PooledFrame)
    (hp : p.Held { hand with bufs := f.payload.toList ++ hand.bufs }) :
    (freePayload f p).Held hand := by
  unfold freePayload
  cases hpay : f.payload with
  | none =>
    rw [hpay] at hp
    exact hp
  | some cl =>
    rw [hpay] at hp
    dsimp only
    split_ifs
    · exact freeReadBuf_held cl hp
    · exact { hp with bufs := hp.bufs.giveUp }

theorem freePayloads_held (es : List PooledFrame)
    (hp : p.Held { hand with bufs := es.filterMap PooledFrame.payload ++ hand.bufs }) :
    (es.foldl (fun p e => freePayload e p) p).Held hand := by
  induction es generalizing p with
  | nil => exact hp
  | cons e es ih =>
    rw [List.foldl_cons]
    have hone : (freePayload e p).Held
        { hand with bufs := es.filterMap PooledFrame.payload ++ hand.bufs } := by
      apply freePayload_held
      cases hpay : e.payload with
      | none => simpa [List.filterMap_cons, hpay] using hp
      | some cl => simpa [List.filterMap_cons, hpay] using hp
    exact ih hone

theorem freePendingBufs_held (es : List PooledPending)
    (hp : p.Held { hand with data := es.map PooledPending.data ++ hand.data }) :
    (es.foldl (fun p e => freePendingBuf e.data p) p).Held hand := by
  induction es generalizing p with
  | nil => exact hp
  | cons e es ih =>
    rw [List.foldl_cons]
    have hone : (freePendingBuf e.data p).Held
        { hand with data := es.map PooledPending.data ++ hand.data } :=
          freePendingBuf_held e.data hp
    exact ih hone

theorem queueFrame_held (st : Option Handle) (frameOk dataOk accepted own : Bool)
    (hp : p.Held hand) : (queueFrame st frameOk dataOk accepted own p).Held hand := by
  have hget := getFrame_held frameOk hp
  unfold queueFrame
  generalize getFrame frameOk p = r at hget ⊢
  obtain ⟨_ | f, p'⟩ := r
  · rcases hget with ⟨f, hf, -⟩ | ⟨-, hheld⟩
    · cases hf
    · exact hheld
  · rcases hget with ⟨f', hf, hheld⟩ | ⟨hf, -⟩
    · cases hf
      dsimp only
      split_ifs
      · exact freeFrame_held f hheld
      · have hpush := pushFrame_held { frame := f, stream := st, payload := none }
          accepted own hheld
        rcases hpush with ⟨-, hdone⟩ | ⟨-, hdone⟩
        · exact hdone
        · exact hdone
    · cases hf

/-- A buffer that was read is in the hands of the function. -/
theorem takeReading {cl : Nat} {rest : List Nat} {q : Nat → Bool} (hp : p.Held hand)
    (ht : takeFirst q p.reading = some (cl, rest)) :
    Pools.Held { hand with bufs := cl :: hand.bufs } { p with reading := rest } := by
  refine hp.requeue rfl rfl rfl (fun x => le_rfl) fun x => ?_
  have hcount := (takeFirst_perm ht).count_eq x
  simp only [Pools.bufs, Pools.queued, List.cons_append, List.count_append, List.count_cons]
    at hcount ⊢
  omega

theorem keepReading_held (cl : Nat) (hp : p.Held { hand with bufs := cl :: hand.bufs }) :
    (keepReading cl p).Held hand := by
  refine hp.requeue rfl rfl rfl (fun x => le_rfl) fun x => ?_
  simp only [keepReading, Pools.bufs, Pools.queued, List.cons_append, List.count_append,
    List.count_cons]
  omega

theorem scheduleFrame_held (f : Nat) (hp : p.Held hand) : (scheduleFrame f p).Held hand := by
  unfold scheduleFrame
  cases ht : takeFirst (fun e : PooledFrame => e.frame == f) p.streamOut with
  | none => exact hp
  | some r =>
    obtain ⟨e, rest⟩ := r
    have hperm : (rest ++ (p.sessionOut ++ [e])).Perm p.queued := by
      have hmove : (rest ++ (p.sessionOut ++ [e])).Perm (e :: rest ++ p.sessionOut) := by
        rw [← List.append_assoc]
        exact List.perm_append_singleton e (rest ++ p.sessionOut)
      exact hmove.trans ((takeFirst_perm ht).symm.append_right _)
    refine hp.requeue rfl rfl rfl (fun x => ?_) fun x => ?_
    · have hcount := (hperm.map PooledFrame.frame).count_eq x
      simp only [List.count_append]
      exact Nat.add_le_add_left hcount.le _
    · have hcount := (hperm.filterMap PooledFrame.payload).count_eq x
      simp only [Pools.bufs, List.count_append]
      exact Nat.add_le_add_left (Nat.add_le_add_left hcount.le _) _

theorem frameHandler_held (f : Nat) (hp : p.Held hand) : (frameHandler f p).Held hand := by
  unfold frameHandler
  cases ht : takeFirst (fun e : PooledFrame => e.frame == f) p.sessionOut with
  | none => exact hp
  | some r =>
    obtain ⟨e, rest⟩ := r
    have hperm : p.queued.Perm (e :: (p.streamOut ++ rest)) :=
      ((takeFirst_perm ht).append_left _).trans List.perm_middle
    have htaken : Pools.Held
        { hand with frames := e.frame :: hand.frames, bufs := e.payload.toList ++ hand.bufs }
        { p with sessionOut := rest } := by
      refine hp.requeue rfl rfl rfl (fun x => ?_) fun x => ?_
      · have hcount := (hperm.map PooledFrame.frame).count_eq x
        simp only [Pools.frames, List.map_cons, List.cons_append, List.count_append,
          List.count_cons] at hcount ⊢
        rw [hcount]
        simp only [Pools.queued]
        omega
      · have hcount := (hperm.filterMap PooledFrame.payload).count_eq x
        rw [filterMap_payload] at hcount
        simp only [Pools.bufs, List.count_append] at hcount ⊢
        rw [hcount]
        simp only [Pools.queued]
        omega
    exact freeFrame_held e.frame (freePayload_held e htaken)

theorem queueChainFrame_held (h : Handle) (cl : Nat) (frameOk accepted own : Bool)
    (hp : p.Held hand) : (queueChainFrame h cl frameOk accepted own p).Held hand := by
  unfold queueChainFrame
  cases ht : takeFirst (fun b => b == cl) p.reading with
  | none => exact hp
  | some t =>
    obtain ⟨cl, rest⟩ := t
    have hget := getFrame_held frameOk (takeReading hp ht)
    dsimp only
    generalize getFrame frameOk { p with reading := rest } = r at hget ⊢
    obtain ⟨_ | f, p'⟩ := r
    · rcases hget with ⟨f, hf, -⟩ | ⟨-, hheld⟩
      · cases hf
      · exact keepReading_held cl hheld
    · rcases hget with ⟨f', hf, hheld⟩ | ⟨hf, -⟩
      · cases hf
        have hready : p'.Held { hand with frames := f :: hand.frames, bufs := [cl] ++ hand.bufs } :=
          hheld
        have hpush := pushFrame_held { frame := f, stream := some h, payload := some cl }
          accepted own hready
        dsimp only
        rcases hpush with ⟨hqueued, hdone⟩ | ⟨hno, hdone⟩
        · rw [if_pos hqueued]
          exact hdone
        · rw [if_neg (by rw [hno]; decide)]
          exact keepReading_held cl hdone
      · cases hf

theorem dropOut_held (h : Handle) (hp : p.Held hand) : (dropOut h p).Held hand := by
  unfold dropOut
  apply freePayloads_held
  have hperm : (p.streamOut.filter (fun e => e.stream == some h) ++
      p.streamOut.filter fun e => !(e.stream == some h)).Perm p.streamOut :=
    List.filter_append_perm _ _
  refine hp.requeue rfl rfl rfl (fun x => ?_) fun x => ?_
  · have hcount := (hperm.map PooledFrame.frame).count_eq x
    simp only [Pools.frames, Pools.queued, List.map_append, List.count_append] at hcount ⊢
    omega
  · have hcount := (hperm.filterMap PooledFrame.payload).count_eq x
    simp only [Pools.bufs, Pools.queued, List.filterMap_append, List.count_append] at hcount ⊢
    omega

theorem startRead_held (size : Nat) (clOk bufOk startOk : Bool) (hp : p.Held hand) :
    (startRead size clOk bufOk startOk p).Held hand := by
  have hget := getReadBuf_held size clOk bufOk startOk hp
  unfold startRead
  generalize getReadBuf size clOk bufOk startOk p = r at hget ⊢
  obtain ⟨_ | cl, p'⟩ := r
  · rcases hget with ⟨cl, hcl, -⟩ | ⟨-, hsame⟩
    · cases hcl
    · dsimp only at hsame ⊢
      rw [hsame]
      exact hp
  · rcases hget with ⟨cl', hcl, hheld⟩ | ⟨hcl, -⟩
    · cases hcl
      exact keepReading_held cl hheld
    · cases hcl

theorem endRead_held (cl : Nat) (hp : p.Held hand) : (endRead cl p).Held hand := by
  unfold endRead
  cases ht : takeFirst (fun b => b == cl) p.reading with
  | none => exact hp
  | some r =>
    obtain ⟨cl, rest⟩ := r
    exact freeReadBuf_held cl (takeReading hp ht)

/-- The pending records and their buffers only move. -/
theorem Pools.Held.repend {hand' : Hand} (es : List PooledPending) (hp : p.Held hand)
    (hand_frames : hand'.frames = hand.frames) (hand_bufs : hand'.bufs = hand.bufs)
    (hdata : ∀ x, (hand'.data ++ es.map PooledPending.data).count x ≤
      (hand.data ++ p.data).count x)
    (hrecords : ∀ h x, (hand'.records h ++
      (es.filter fun e => e.stream == h).map PooledPending.record).count x ≤
        (hand.records h ++ p.records h).count x) :
    Pools.Held hand' { p with pending := es } := by
  refine ⟨?_, ?_, hp.data.move hdata, fun h => (hp.records h).move (hrecords h)⟩
  · rw [hand_frames]
    exact hp.frames
  · rw [hand_bufs]
    exact hp.bufs

theorem pendingSent_held (h : Handle) (hp : p.Held hand) : (pendingSent h p).Held hand := by
  unfold pendingSent
  cases ht : takeFirst (fun e : PooledPending => e.stream == h) p.pending with
  | none => exact hp
  | some r =>
    obtain ⟨e, rest⟩ := r
    have hperm := takeFirst_perm ht
    have htaken : Pools.Held
        { hand.take e.stream e.record with data := e.data :: hand.data }
        { p with pending := rest } := by
      refine hp.repend rest rfl rfl (fun x => ?_) fun g x => ?_
      · have hcount := (hperm.map PooledPending.data).count_eq x
        simp only [Pools.data, List.map_cons, List.cons_append, List.count_append,
          List.count_cons] at hcount ⊢
        omega
      · have hcount := ((hperm.filter fun e => e.stream == g).map PooledPending.record).count_eq x
        by_cases hg : e.stream = g
        · subst hg
          simp [Hand.take, Pools.records, List.count_append, List.count_cons] at hcount ⊢
          omega
        · have hg' : g ≠ e.stream := fun he => hg he.symm
          simp [Hand.take, Pools.records, hg, hg', List.count_append] at hcount ⊢
          omega
    exact freeRecord_held e.stream e.record (freePendingBuf_held e.data htaken)

theorem discardPending_held (h : Handle) (hp : p.Held hand) : (discardPending h p).Held hand := by
  unfold discardPending
  apply freePendingBufs_held
  refine hp.repend _ rfl rfl (fun x => ?_) fun g x => ?_
  · have hperm : (p.pending.filter (fun e => e.stream == h) ++
        p.pending.filter fun e => !(e.stream == h)).Perm p.pending := List.filter_append_perm _ _
    have hcount := (hperm.map PooledPending.data).count_eq x
    simp only [Pools.data, List.map_append, List.count_append] at hcount ⊢
    omega
  · have hsub : ((p.pending.filter fun e => !(e.stream == h)).filter fun e => e.stream == g).Sublist
        (p.pending.filter fun e => e.stream == g) := (List.filter_sublist).filter _
    have hcount := (hsub.map PooledPending.record).count_le x
    simp only [Pools.records, List.count_append] at hcount ⊢
    omega

/-- The record of `ngx_anytls_upstream_queue` is there and its buffer is not. -/
def LosesCount (p : Pools) (h : Handle) (len : Nat) (recordOk dataOk : Bool) : Prop :=
  (p.freePendingIn h ≠ [] ∨ recordOk = true) ∧ dataOk = false ∧
    ∀ hdr ∈ p.freePendingBufs, p.pendingCap hdr < len

instance (p : Pools) (h : Handle) (len : Nat) (recordOk dataOk : Bool) :
    Decidable (LosesCount p h len recordOk dataOk) := inferInstanceAs (Decidable (_ ∧ _ ∧ _))

theorem getRecord_some (h : Handle) (ok : Bool) (p : Pools) :
    ((getRecord h ok p).1 ≠ none ↔ p.freePendingIn h ≠ [] ∨ ok = true) ∧
      (getRecord h ok p).2.freePendingBufs = p.freePendingBufs ∧
      (getRecord h ok p).2.pendingCap = p.pendingCap := by
  unfold getRecord
  cases p.freePendingIn h with
  | cons r rs => simp
  | nil => cases ok <;> simp

theorem allocPendingBuf_none (len : Nat) (ok : Bool) (p : Pools) :
    (allocPendingBuf len ok p).1 = none ↔
      ok = false ∧ ∀ hdr ∈ p.freePendingBufs, p.pendingCap hdr < len := by
  unfold allocPendingBuf
  cases ht : takeFirst (fun hdr => len ≤ p.pendingCap hdr) p.freePendingBufs with
  | some r =>
    obtain ⟨hdr, rest⟩ := r
    have hsat : len ≤ p.pendingCap hdr := by simpa using takeFirst_sat ht
    have hmem : hdr ∈ p.freePendingBufs := (takeFirst_perm ht).mem_iff.mpr List.mem_cons_self
    refine ⟨fun hno => (by cases hno), fun hno => ?_⟩
    exact absurd (hno.2 hdr hmem) (Nat.not_lt.mpr hsat)
  | none =>
    have hsmall : ∀ hdr ∈ p.freePendingBufs, p.pendingCap hdr < len := by
      intro hdr hm
      simpa using takeFirst_none ht hdr hm
    cases ok with
    | false => exact ⟨fun _ => ⟨rfl, hsmall⟩, fun _ => rfl⟩
    | true => simp

/-- A record without a buffer goes back uncounted, and only then. -/
theorem losesCount_iff (p : Pools) (h : Handle) (len : Nat) (recordOk dataOk : Bool) :
    LosesCount p h len recordOk dataOk ↔ (getRecord h recordOk p).1 ≠ none ∧
      (allocPendingBuf len dataOk (getRecord h recordOk p).2).1 = none := by
  obtain ⟨hsome, hbufs, hcap⟩ := getRecord_some h recordOk p
  rw [hsome, allocPendingBuf_none, hbufs, hcap]
  rfl

theorem upstreamQueue_held (h : Handle) (len : Nat) (recordOk dataOk : Bool) (hp : p.Held hand)
    (hkeep : ¬LosesCount p h len recordOk dataOk) :
    (upstreamQueue h len recordOk dataOk p).Held hand := by
  have hget := getRecord_held h recordOk hp
  rw [losesCount_iff] at hkeep
  unfold upstreamQueue
  generalize getRecord h recordOk p = r at hget hkeep ⊢
  obtain ⟨_ | r, p'⟩ := r
  · rcases hget with ⟨r, hr, -⟩ | ⟨-, hheld⟩
    · cases hr
    · exact hheld
  · rcases hget with ⟨r', hr, hheld⟩ | ⟨hr, -⟩
    · cases hr
      have halloc := allocPendingBuf_held len dataOk hheld
      have hsome : (allocPendingBuf len dataOk p').1 ≠ none := fun hno => hkeep ⟨by simp, hno⟩
      dsimp only
      generalize allocPendingBuf len dataOk p' = a at halloc hsome ⊢
      obtain ⟨_ | hdr, q⟩ := a
      · exact absurd rfl hsome
      · rcases halloc with ⟨hdr', hd, hboth⟩ | ⟨hd, -⟩
        · cases hd
          refine hboth.repend _ rfl rfl (fun x => ?_) fun g x => ?_
          · simp [Pools.data, Hand.take, List.count_append, List.count_cons]
            omega
          · by_cases hg : h = g
            · subst hg
              simp [Hand.take, Pools.records, List.count_append, List.count_cons]
              omega
            · have hg' : g ≠ h := fun he => hg he.symm
              simp [Hand.take, Pools.records, hg, hg', List.count_append]
        · cases hd
    · cases hr

theorem upstreamQueue_loses (h : Handle) (len : Nat) (recordOk dataOk : Bool) (hp : p.Held hand)
    (hlose : LosesCount p h len recordOk dataOk) :
    (upstreamQueue h len recordOk dataOk p).freePendingInCount h + 1 =
      ((upstreamQueue h len recordOk dataOk p).freePendingIn h).length := by
  have hget := getRecord_held h recordOk hp
  rw [losesCount_iff] at hlose
  unfold upstreamQueue
  generalize getRecord h recordOk p = r at hget hlose ⊢
  obtain ⟨_ | r, p'⟩ := r
  · exact absurd rfl hlose.1
  · rcases hget with ⟨r', hr, hheld⟩ | ⟨hr, -⟩
    · cases hr
      have halloc := allocPendingBuf_held len dataOk hheld
      have hnone := hlose.2
      dsimp only at hnone ⊢
      generalize allocPendingBuf len dataOk p' = a at halloc hnone ⊢
      obtain ⟨_ | hdr, q⟩ := a
      · rcases halloc with ⟨hdr', hd, -⟩ | ⟨-, hsame⟩
        · cases hd
        · dsimp only at hsame ⊢
          rw [hsame]
          simpa [putBackRecord] using (hheld.records h).counted.1
      · cases hnone
    · cases hr

/-- The steps that put a record back uncounted. -/
def PoolOp.LosesCount (p : Pools) : PoolOp → Prop
  | .upstreamQueue h len recordOk dataOk => Recycling.LosesCount p h len recordOk dataOk
  | _ => False

/-- The counters tell the lengths of the free lists and stay within their caps, and nothing is on a
free list twice or while it is in use. -/
structure Pools.Consistent (p : Pools) : Prop where
  freeFrames : Counted maxFreeFrames p.freeFramesCount p.freeFrames.length
  freeReadBufs : Counted maxFreeReadBufs p.freeReadBufsCount
    (p.freeReadBufs.length + p.freeReadBufsLarge.length)
  freePendingBufs : Counted maxFreePendingIn p.freePendingBufsCount p.freePendingBufs.length
  freePendingIn : ∀ h, Counted maxFreePendingIn (p.freePendingInCount h) (p.freePendingIn h).length
  once : p.freeFrames.Nodup ∧ (p.freeReadBufs ++ p.freeReadBufsLarge).Nodup ∧
    p.freePendingBufs.Nodup ∧ ∀ h, (p.freePendingIn h).Nodup
  frames : ∀ f ∈ p.freeFrames, f ∉ p.frames
  bufs : ∀ cl ∈ p.freeReadBufs ++ p.freeReadBufsLarge, cl ∉ p.bufs
  data : ∀ hdr ∈ p.freePendingBufs, hdr ∉ p.data
  records : ∀ h, ∀ r ∈ p.freePendingIn h, r ∉ p.records h

theorem Pools.Held.consistent (hp : p.Held {}) : p.Consistent where
  freeFrames := hp.frames.counted
  freeReadBufs := by
    rw [← List.length_append]
    exact hp.bufs.counted
  freePendingBufs := hp.data.counted
  freePendingIn h := (hp.records h).counted
  once := ⟨hp.frames.custody.once.of_append_left, hp.bufs.custody.once.of_append_left,
    hp.data.custody.once.of_append_left, fun h => (hp.records h).custody.once.of_append_left⟩
  frames := hp.frames.custody.apart
  bufs := hp.bufs.custody.apart
  data := hp.data.custody.apart
  records h := (hp.records h).custody.apart

theorem empty_held : Pools.Held {} {} := by
  have hnone : ∀ cap, Tracked cap 0 [] [] 0 := fun cap =>
    ⟨⟨rfl, Nat.zero_le _⟩, ⟨List.nodup_nil, by simp⟩⟩
  exact ⟨hnone _, hnone _, hnone _, fun _ => hnone _⟩

theorem poolStep_held (op : PoolOp) (hp : p.Held {}) (hkeep : ¬op.LosesCount p) :
    (poolStep p op).Held {} := by
  cases op with
  | queueFrame st frameOk dataOk accepted own =>
    exact queueFrame_held st frameOk dataOk accepted own hp
  | queueChainFrame h cl frameOk accepted own =>
    exact queueChainFrame_held h cl frameOk accepted own hp
  | scheduleFrame f => exact scheduleFrame_held f hp
  | frameHandler f => exact frameHandler_held f hp
  | dropOut h => exact dropOut_held h hp
  | startRead size clOk bufOk startOk => exact startRead_held size clOk bufOk startOk hp
  | endRead cl => exact endRead_held cl hp
  | upstreamQueue h len recordOk dataOk => exact upstreamQueue_held h len recordOk dataOk hp hkeep
  | pendingSent h => exact pendingSent_held h hp
  | discardPending h => exact discardPending_held h hp

instance (p : Pools) (op : PoolOp) : Decidable (op.LosesCount p) :=
  match op with
  | .upstreamQueue h len recordOk dataOk =>
    inferInstanceAs (Decidable (Recycling.LosesCount p h len recordOk dataOk))
  | .queueFrame .. | .queueChainFrame .. | .scheduleFrame _ | .frameHandler _ | .dropOut _
  | .startRead .. | .endRead _ | .pendingSent _ | .discardPending _ => isFalse id

/-- No step of a run from the state loses a count. -/
abbrev KeepsCounts : Pools → List PoolOp → Prop := Every poolStep fun p op => ¬op.LosesCount p

theorem foldl_held (ops : List PoolOp) (hp : p.Held {}) (hkeep : KeepsCounts p ops) :
    (ops.foldl poolStep p).Held {} := by
  induction ops generalizing p with
  | nil => exact hp
  | cons op ops ih =>
    obtain ⟨hnow, hrest⟩ := hkeep
    exact ih (poolStep_held op hp hnow) hrest

/-- In every run, whatever the allocations and the guards answer and whatever the order of the
steps: the free lists are consistent as long as no record goes back uncounted, and the first one
that does makes them inconsistent. -/
theorem run_pools_consistent (ops : List PoolOp) (hkeep : KeepsCounts {} ops) :
    (runPools ops).Consistent ∧ ∀ op, (runPools (ops ++ [op])).Consistent ↔
      ¬op.LosesCount (runPools ops) := by
  have hheld : (runPools ops).Held {} := foldl_held ops empty_held hkeep
  refine ⟨hheld.consistent, fun op => ?_⟩
  have hstep : runPools (ops ++ [op]) = poolStep (runPools ops) op := by
    simp [runPools, List.foldl_append]
  rw [hstep]
  refine ⟨fun hc hlose => ?_, fun hno => (poolStep_held op hheld hno).consistent⟩
  cases op with
  | upstreamQueue h len recordOk dataOk =>
    have hcount := upstreamQueue_loses h len recordOk dataOk hheld hlose
    have heq : (upstreamQueue h len recordOk dataOk (runPools ops)).freePendingInCount h =
        ((upstreamQueue h len recordOk dataOk (runPools ops)).freePendingIn h).length :=
      (hc.freePendingIn h).1
    omega
  | _ => exact hlose

/-- A datagram is read and sent to the client, and a payload to the upstream. -/
def sampleOps : List PoolOp :=
  [.startRead 100 true true true, .queueChainFrame 0 0 true true true, .scheduleFrame 0,
    .upstreamQueue 0 5 true true, .pendingSent 0, .frameHandler 0, .startRead 90 false true true]

theorem run_pools_consistent_sample :
    (runPools sampleOps).Consistent ∧ (runPools sampleOps).reading = [0] := by
  have hkeep : KeepsCounts {} sampleOps :=
    ⟨by decide, by decide, by decide, by decide, by decide, by decide, by decide, trivial⟩
  exact ⟨(run_pools_consistent sampleOps hkeep).1, by decide⟩

/-- A payload of four bytes waits for the first stream, which is then closed; a payload of five for
the second one does not fit into its buffer, and the new one is not allocated. -/
def tooShort : List PoolOp :=
  [.upstreamQueue 0 4 true true, .discardPending 0, .upstreamQueue 1 5 true false]

/-- The input after a payload of four bytes of the first stream is held back; it holds a payload of
five of the second. The close of the first stream lets it in when there is a record and no memory
for its bytes. -/
def heldPayload : List (Event × Env) :=
  [sampleRead (sampleHello sampleV2 ++ encodeFrame 1 1 [] ++ encodeFrame 2 1 sampleTarget ++
      encodeFrame 1 2 [] ++ encodeFrame 2 2 sampleTarget) { connect := [.ok, .ok] },
    sampleRead (encodeFrame 2 1 [6, 7, 8, 9] ++ encodeFrame 2 2 [1, 2, 3, 4, 5])
      { send := [.again] },
    (.upstreamWrite 0 false true,
      { chain := [.error], send := [.again], alloc := [true, true, false] })]

/-- One buffer that is not allocated puts a record on the free list that its counter does not know
of; the next payload takes it and wraps the counter, and no record of the stream is recycled any
more. The session stays open when the payload is parsed out of the input held back. -/
theorem freePendingIn_drifts :
    ¬(runPools tooShort).Consistent ∧
    (∃ p, p = runPools (tooShort ++ [.upstreamQueue 1 5 true true, .pendingSent 1]) ∧
      p.freePendingInCount 1 = wordSize - 1 ∧ p.freePendingIn 1 = [] ∧ p.pending = []) ∧
    ∃ ac, ac = run sampleConf heldPayload ∧ ac.closing = false ∧ .inputDropped [] ∈ ac.trace ∧
      (ac.streams 1).state = .connected ∧ (ac.streams 1).upstream.isSome = true ∧
      (ac.streams 1).pendingIn = [] := by
  refine ⟨fun hc => ?_, ⟨_, rfl, by decide, by decide, by decide⟩, ⟨_, rfl, by decide +kernel⟩⟩
  exact absurd (hc.freePendingIn 1).1 (by decide)

end NgxAnytls.Recycling
