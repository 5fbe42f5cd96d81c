import NgxAnytls.Wire
import NgxAnytls.UotSlotMux

/-! The books of a session: the backlogs of its streams with their totals, and the frames for the
client from the call that queues them to the chain of the socket. What one effect of the module
does to them. -/

namespace NgxAnytls

open Relation

/-- The queues of the scheduler in which a stream can be linked. -/
inductive SchedQueue where
  | ready | read | write | blocked | connect
  deriving DecidableEq, Repr

/-- The mark of a stream that says that it is linked. -/
def Stream.linkedIn (st : Stream) : SchedQueue → Bool
  | .ready => st.queued
  | .read => st.upstreamReadReady
  | .write => st.upstreamWriteReady
  | .blocked => st.upstreamReadBlocked
  | .connect => st.connectPending

def Connection.schedQueue (ac : Connection) : SchedQueue → List Handle
  | .ready => ac.readyStreams
  | .read => ac.readReady
  | .write => ac.writeReady
  | .blocked => ac.blockedUpstreamReads
  | .connect => ac.connectPending

/-- What of a stream stands in the books: the lengths of its pending buffers and the counter for
them, whether it blocks client input, its own frames, and the queues it says it is linked in. -/
structure StreamBooks where
  lens : List Nat
  bytes : Nat
  blocked : Bool
  out : List OutFrame
  linkedIn : SchedQueue → Bool

def Stream.books (st : Stream) : StreamBooks where
  lens := st.pendingIn.map fun p => p.data.length
  bytes := st.pendingInBytes
  blocked := st.inputBlocked
  out := st.out
  linkedIn := st.linkedIn

/-- Say that the stream is linked in a queue, or not. -/
def StreamBooks.mark (q : SchedQueue) (b : Bool) (st : StreamBooks) : StreamBooks :=
  { st with linkedIn := Function.update st.linkedIn q b }

/-- A stream that was just allocated. -/
def StreamBooks.fresh : StreamBooks := ⟨[], 0, false, [], fun _ => false⟩

/-- The streams that were closed. -/
def closedStreams (t : List Obs) : List Handle :=
  t.filterMap fun
    | .streamClosed h => some h
    | _ => none

@[simp] theorem closedStreams_append (s t : List Obs) :
    closedStreams (s ++ t) = closedStreams s ++ closedStreams t := List.filterMap_append ..

structure Books where
  streams : Handle → StreamBooks
  nstreams : Nat
  maxPendingInput : Nat
  ht : List Slot
  schedQueue : SchedQueue → List Handle
  pendingInput : Nat
  blockedInputStreams : Nat
  controlOut : List OutFrame
  dataOut : List OutFrame
  queued : List OutFrame
  linked : List OutFrame
  closed : List Handle

def Connection.books (ac : Connection) : Books where
  streams h := (ac.streams h).books
  nstreams := ac.nstreams
  maxPendingInput := ac.conf.maxPendingInput
  ht := ac.ht
  schedQueue := ac.schedQueue
  pendingInput := ac.pendingInput
  blockedInputStreams := ac.blockedInputStreams
  controlOut := ac.controlOut
  dataOut := ac.dataOut
  queued := queuedFrames ac.trace
  linked := linkedFrames ac.trace
  closed := closedStreams ac.trace

namespace Books

def upd (b : Books) (h : Handle) (f : StreamBooks → StreamBooks) : Books :=
  { b with streams := Function.update b.streams h (f (b.streams h)) }

theorem upd_stream (b : Books) (h g : Handle) (f : StreamBooks → StreamBooks) :
    (b.upd h f).streams g = if g = h then f (b.streams h) else b.streams g :=
  Function.update_apply b.streams h (f (b.streams h)) g

theorem upd_self (b : Books) (h : Handle) (f : StreamBooks → StreamBooks) :
    (b.upd h f).streams h = f (b.streams h) := by rw [upd_stream, if_pos rfl]

theorem upd_other (b : Books) {h g : Handle} (f : StreamBooks → StreamBooks) (hg : g ≠ h) :
    (b.upd h f).streams g = b.streams g := by rw [upd_stream, if_neg hg]

theorem upd_same (b : Books) (h : Handle) : (b.upd h fun st => st) = b := by
  rw [upd, Function.update_eq_self]

/-- The first pending buffer of a stream leaves. -/
def pop (b : Books) (h : Handle) : Books :=
  { b with pendingInput := b.pendingInput - (b.streams h).lens.headD 0 }.upd h fun st =>
    { st with lens := st.lens.tail, bytes := st.bytes - (b.streams h).lens.headD 0 }

def discard (b : Books) (h : Handle) : Books :=
  { b with pendingInput := b.pendingInput - (b.streams h).bytes }.upd h fun st =>
    { st with lens := [], bytes := 0 }

/-- Link a stream, also where another place than the end is its own. -/
def link (b : Books) (q : SchedQueue) (h : Handle) (front : Bool) : Books :=
  { b with
    schedQueue := Function.update b.schedQueue q
      (if front then h :: b.schedQueue q else b.schedQueue q ++ [h]) }.upd h (.mark q true)

def unlink (b : Books) (q : SchedQueue) (h : Handle) : Books :=
  { b with schedQueue := Function.update b.schedQueue q ((b.schedQueue q).erase h) }.upd h
    (.mark q false)

/-- Link a stream that does not say it is linked. -/
def enter (b : Books) (q : SchedQueue) (h : Handle) (front : Bool) : Books :=
  if (b.streams h).linkedIn q then b else b.link q h front

/-- Unlink a stream that says it is linked. -/
def leave (b : Books) (q : SchedQueue) (h : Handle) : Books :=
  if (b.streams h).linkedIn q then b.unlink q h else b

/-- A stream that is closed gives up its frames and its turn. -/
def giveUp (b : Books) (h : Handle) : Books :=
  (b.leave .ready h).upd h fun st => { st with out := [] }

/-- A frame to the end of a stream's list. -/
def hold (b : Books) (h : Handle) (f : OutFrame) : Books :=
  { b with queued := b.queued ++ [f] }.upd h fun st => { st with out := st.out ++ [f] }

/-- The first frame of a stream's list to `data_out`. -/
def hand (b : Books) (h : Handle) (f : OutFrame) (fs : List OutFrame) : Books :=
  { b with dataOut := b.dataOut ++ [f] }.upd h fun st => { st with out := fs }

/-- The stream does not block input any more. -/
def unblock (b : Books) (h : Handle) : Books :=
  if (b.streams h).blocked then
    { b with blockedInputStreams := b.blockedInputStreams - 1 }.upd h fun st =>
      { st with blocked := false }
  else b

/-- A stream blocks input until its backlog is down at half of the limit. -/
def settle (b : Books) (h : Handle) : Books :=
  if b.maxPendingInput / 2 < (b.streams h).bytes then b else b.unblock h

/-- Only streams that exist are found or linked in a queue. -/
structure Known (b : Books) : Prop where
  table : ∀ h, Slot.used h ∈ b.ht → h < b.nstreams
  linked : ∀ q, ∀ h ∈ b.schedQueue q, h < b.nstreams

end Books

/-- A PSH or FIN of a stream: they keep their turn. -/
def OutFrame.InTurn (h : Handle) (f : OutFrame) : Prop :=
  f.stream = some h ∧ (f.cmd = .psh ∨ f.cmd = .fin)

instance (h : Handle) (f : OutFrame) : Decidable (f.InTurn h) := instDecidableAnd

/-- A frame in the turn of no stream. -/
def OutFrame.OutOfTurn (f : OutFrame) : Prop := f.stream = none ∨ ¬(f.cmd = .psh ∨ f.cmd = .fin)

instance (f : OutFrame) : Decidable f.OutOfTurn := instDecidableOr

/-- One effect on the books. -/
inductive BookAct : Books → Books → Prop
  | append {b} (h : Handle) (n : Nat) (hknown : h < b.nstreams) :
      BookAct b ({ b with pendingInput := b.pendingInput + n }.upd h fun st =>
        { st with lens := st.lens ++ [n], bytes := st.bytes + n })
  | pop {b} (h : Handle) : BookAct b ((b.pop h).settle h)
  | discard {b} (h : Handle) : BookAct b ((b.discard h).unblock h)
  | block {b} (h : Handle) (hknown : h < b.nstreams) (hopen : (b.streams h).blocked = false)
      (hfull : b.maxPendingInput < (b.streams h).bytes) :
      BookAct b ({ b with blockedInputStreams := b.blockedInputStreams + 1 }.upd h fun st =>
        { st with blocked := true })
  | create {b} :
      BookAct b ({ b with nstreams := b.nstreams + 1 }.upd b.nstreams fun _ => .fresh)
  | table {b} (ht : List Slot)
      (hht : ∀ h, Slot.used h ∈ ht → Slot.used h ∈ b.ht ∨ h < b.nstreams) :
      BookAct b { b with ht := ht }
  | link {b} (q : SchedQueue) (h : Handle) (front : Bool) (hknown : h < b.nstreams)
      (hfree : (b.streams h).linkedIn q = false) : BookAct b (b.link q h front)
  | unlink {b} (q : SchedQueue) (h : Handle) (hout : q = .ready → (b.streams h).out = []) :
      BookAct b (b.unlink q h)
  | control {b} (f : OutFrame) (hf : f.OutOfTurn) :
      BookAct b { b with controlOut := b.controlOut ++ [f], queued := b.queued ++ [f] }
  | direct {b} (h : Handle) (f : OutFrame) (hf : f.InTurn h) (hknown : h < b.nstreams)
      (hout : (b.streams h).out = []) :
      BookAct b { b with dataOut := b.dataOut ++ [f], queued := b.queued ++ [f] }
  | own {b} (h : Handle) (f : OutFrame) (front : Bool) (hf : f.InTurn h) (hknown : h < b.nstreams) :
      BookAct b ((b.hold h f).enter .ready h front)
  | schedule {b} (h : Handle) (f : OutFrame) (fs : List OutFrame) (front : Bool)
      (hknown : h < b.nstreams) (hout : (b.streams h).out = f :: fs) :
      BookAct b (if fs ≠ [] then ((b.leave .ready h).hand h f fs).enter .ready h front
        else (b.leave .ready h).hand h f fs)
  | send {b} :
      BookAct b { b with
        linked := b.linked ++ (b.controlOut ++ b.dataOut), controlOut := [], dataOut := [] }
  | close {b} (h : Handle) : BookAct b { b with closed := b.closed ++ [h] }
  | drop {b} (h : Handle) (hclosed : h ∈ b.closed) : BookAct b (b.giveUp h)

namespace Books

variable {b : Books} {h : Handle}

@[simp] theorem unblock_nstreams : (b.unblock h).nstreams = b.nstreams := by
  unfold unblock
  split_ifs <;> rfl

@[simp] theorem settle_nstreams : (b.settle h).nstreams = b.nstreams := by
  unfold settle
  split_ifs <;> simp

@[simp] theorem enter_nstreams (q : SchedQueue) (front : Bool) :
    (b.enter q h front).nstreams = b.nstreams := by
  unfold enter
  split_ifs <;> rfl

@[simp] theorem leave_nstreams (q : SchedQueue) : (b.leave q h).nstreams = b.nstreams := by
  unfold leave
  split_ifs <;> rfl

-- What holds of the books now, and would hold after the change, holds after the change that is
-- only made where a mark asks for it.

section Keeps

variable {I : Books → Prop} (hi : I b)
include hi

theorem unblock_keeps (hfree : (b.streams h).blocked = true →
    I ({ b with blockedInputStreams := b.blockedInputStreams - 1 }.upd h fun st =>
      { st with blocked := false })) : I (b.unblock h) := by
  unfold unblock
  split_ifs with hblocked
  · exact hfree hblocked
  · exact hi

theorem settle_keeps (hunblock : I (b.unblock h)) : I (b.settle h) := by
  unfold settle
  split_ifs
  · exact hi
  · exact hunblock

theorem enter_keeps {q : SchedQueue} {front : Bool}
    (hlink : (b.streams h).linkedIn q = false → I (b.link q h front)) :
    I (b.enter q h front) := by
  unfold enter
  split_ifs with hin
  · exact hi
  · exact hlink (Bool.eq_false_iff.mpr hin)

theorem leave_keeps {q : SchedQueue} (hunlink : I (b.unlink q h)) : I (b.leave q h) := by
  unfold leave
  split_ifs
  · exact hunlink
  · exact hi

end Keeps

theorem link_streams (q : SchedQueue) (front : Bool) (g : Handle) : (b.link q h front).streams g =
    if g = h then (b.streams h).mark q true else b.streams g := by
  rw [link, upd_stream]

theorem unlink_streams (q : SchedQueue) (g : Handle) : (b.unlink q h).streams g =
    if g = h then (b.streams h).mark q false else b.streams g := by
  rw [unlink, upd_stream]

theorem leave_out (q : SchedQueue) (g : Handle) :
    ((b.leave q h).streams g).out = (b.streams g).out := by
  unfold leave
  split_ifs
  · rw [unlink_streams]
    split_ifs with hg
    · rw [hg]
      rfl
    · rfl
  · rfl

theorem mem_link {q r : SchedQueue} {front : Bool} {g : Handle}
    (hg : g ∈ (b.link q h front).schedQueue r) : g = h ∨ g ∈ b.schedQueue r := by
  have hcell : g ∈ Function.update b.schedQueue q
      (if front then h :: b.schedQueue q else b.schedQueue q ++ [h]) r := hg
  rw [Function.update_apply] at hcell
  split_ifs at hcell with hr
  · exact hr ▸ List.mem_cons.mp hcell
  · exact hr ▸ (List.mem_append.mp hcell).symm.imp_left List.mem_singleton.mp
  · exact .inr hcell

theorem mem_unlink {q r : SchedQueue} {g : Handle} (hg : g ∈ (b.unlink q h).schedQueue r) :
    g ∈ b.schedQueue r := by
  have hcell : g ∈ Function.update b.schedQueue q ((b.schedQueue q).erase h) r := hg
  rw [Function.update_apply] at hcell
  split_ifs at hcell with hr
  · exact hr ▸ List.mem_of_mem_erase hcell
  · exact hcell

theorem Known.link (hk : b.Known) (q : SchedQueue) (front : Bool) (hknown : h < b.nstreams) :
    (b.link q h front).Known := by
  refine ⟨hk.table, fun r g hg => ?_⟩
  rcases mem_link hg with rfl | hmem
  · exact hknown
  · exact hk.linked r g hmem

theorem Known.unlink (hk : b.Known) (q : SchedQueue) (h : Handle) : (b.unlink q h).Known :=
  ⟨hk.table, fun r g hg => hk.linked r g (mem_unlink hg)⟩

theorem Known.leave (hk : b.Known) (q : SchedQueue) (h : Handle) : (b.leave q h).Known :=
  leave_keeps hk (hk.unlink q h)

theorem Known.enter (hk : b.Known) (q : SchedQueue) (front : Bool) (hknown : h < b.nstreams) :
    (b.enter q h front).Known := enter_keeps hk fun _ => hk.link q front hknown

theorem Known.unblock (hk : b.Known) (h : Handle) : (b.unblock h).Known :=
  unblock_keeps hk fun _ => ⟨hk.table, hk.linked⟩

theorem Known.settle (hk : b.Known) (h : Handle) : (b.settle h).Known :=
  settle_keeps hk (hk.unblock h)

end Books

theorem BookAct.nstreams {b b' : Books} (ha : BookAct b b') : b.nstreams ≤ b'.nstreams := by
  cases ha with
  | create => exact Nat.le_succ _
  | pop h => exact (Books.settle_nstreams (b := b.pop h)).ge
  | discard h => exact (Books.unblock_nstreams (b := b.discard h)).ge
  | own h f front => exact (Books.enter_nstreams (b := b.hold h f) .ready front).ge
  | schedule h f fs front =>
    have hleave : ((b.leave .ready h).hand h f fs).nstreams = b.nstreams :=
      Books.leave_nstreams .ready
    split_ifs
    · rw [Books.enter_nstreams]
      exact hleave.ge
    · exact hleave.ge
  | drop h => exact (Books.leave_nstreams (b := b) (h := h) .ready).ge
  | append | block | table | link | unlink | control | direct | send | close => exact le_rfl

theorem BookAct.known {b b' : Books} (ha : BookAct b b') (hk : b.Known) : b'.Known := by
  cases ha with
  | create =>
    exact ⟨fun h hh => Nat.lt_succ_of_lt (hk.table h hh),
      fun q h hh => Nat.lt_succ_of_lt (hk.linked q h hh)⟩
  | table ht hht => exact ⟨fun h hh => (hht h hh).elim (hk.table h) id, hk.linked⟩
  | link q h front hknown => exact hk.link q front hknown
  | unlink q h => exact hk.unlink q h
  | pop h =>
    have hpop : (b.pop h).Known := ⟨hk.table, hk.linked⟩
    exact hpop.settle h
  | discard h =>
    have hdiscard : (b.discard h).Known := ⟨hk.table, hk.linked⟩
    exact hdiscard.unblock h
  | own h f front hf hknown =>
    have hhold : (b.hold h f).Known := ⟨hk.table, hk.linked⟩
    exact hhold.enter .ready front hknown
  | schedule h f fs front hknown =>
    have hleave := hk.leave .ready h
    have hhand : ((b.leave .ready h).hand h f fs).Known := ⟨hleave.table, hleave.linked⟩
    split_ifs
    · exact hhand.enter .ready front (hknown.trans_le (Books.leave_nstreams .ready).ge)
    · exact hhand
  | drop h =>
    have hleave := hk.leave .ready h
    exact ⟨hleave.table, hleave.linked⟩
  | append | block | control | direct | send | close => exact ⟨hk.table, hk.linked⟩

/-- Effects on the books, one after the other. -/
abbrev BookRun : Books → Books → Prop := ReflTransGen BookAct

theorem BookRun.nstreams {b b' : Books} (hr : BookRun b b') : b.nstreams ≤ b'.nstreams := by
  induction hr with
  | refl => exact le_rfl
  | tail _ ha ih => exact ih.trans ha.nstreams

theorem BookRun.known {b b' : Books} (hr : BookRun b b') (hk : b.Known) : b'.Known := by
  induction hr with
  | refl => exact hk
  | tail _ ha ih => exact ha.known ih

/-- What all effects keep holds at the end of a run of them. -/
theorem BookRun.invariant {I : Books → Prop} (hI : ∀ {b b'}, BookAct b b' → I b → I b')
    {b b' : Books}
    (hr : BookRun b b') (hi : I b) : I b' := by
  induction hr with
  | refl => exact hi
  | tail _ ha ih => exact hI ha ih

/-- A call books its effects. -/
def Books.Calls (ac ac' : Connection) : Prop := ac.books.Known → BookRun ac.books ac'.books

/-- A call for a stream that exists books its effects. -/
def Books.CallsOn (h : Handle) (ac ac' : Connection) : Prop :=
  ac.books.Known → h < ac.nstreams → BookRun ac.books ac'.books

namespace Books

variable {a b c : Connection} {h g : Handle}

theorem Calls.quiet (hb : b.books = a.books) : Calls a b := fun _ => hb ▸ .refl

theorem Calls.refl (a : Connection) : Calls a a := fun _ => .refl

theorem Calls.act (ha : BookAct a.books b.books) : Calls a b := fun _ => .single ha

theorem Calls.trans (hab : Calls a b) (hbc : Calls b c) : Calls a c := by
  intro hk
  have hr := hab hk
  exact hr.trans (hbc (hr.known hk))

theorem Calls.on (hab : Calls a b) : CallsOn h a b := fun hk _ => hab hk

theorem CallsOn.quiet (hb : b.books = a.books) : CallsOn h a b := (Calls.quiet hb).on

theorem CallsOn.refl (h : Handle) (a : Connection) : CallsOn h a a := (Calls.refl a).on

theorem CallsOn.act (ha : h < a.nstreams → BookAct a.books b.books) : CallsOn h a b :=
  fun _ hh => .single (ha hh)

theorem CallsOn.trans (hab : CallsOn h a b) (hbc : CallsOn h b c) : CallsOn h a c := by
  intro hk hh
  have hr := hab hk hh
  exact hr.trans (hbc (hr.known hk) (hh.trans_le hr.nstreams))

theorem CallsOn.then (hab : CallsOn h a b) (hbc : Calls b c) : CallsOn h a c := hab.trans hbc.on

/-- A call for a stream that the books say exists. -/
theorem CallsOn.of (hab : CallsOn h a b) (hh : a.books.Known → h < a.nstreams) : Calls a b :=
  fun hk => hab hk (hh hk)

end Books

section Primitives

variable {ac : Connection} {h : Handle}

theorem upd_books {f : Stream → Stream} {g : StreamBooks → StreamBooks}
    (hf : ∀ st, (f st).books = g st.books) :
    (ac.upd h f).books = ac.books.upd h g := by
  have hstreams : (fun i => ((ac.upd h f).streams i).books) =
      Function.update ac.books.streams h (g (ac.books.streams h)) := by
    funext i
    rw [Connection.upd_streams, Function.update_apply]
    split_ifs
    · exact hf _
    · rfl
  rw [Books.upd, ← hstreams]
  rfl

theorem upd_quiet {f : Stream → Stream} (hf : ∀ st, (f st).books = st.books) :
    (ac.upd h f).books = ac.books := (upd_books hf).trans (Books.upd_same ac.books h)

/-- An effect on the books and on other things of the same stream. -/
theorem upd_act {f : Stream → Stream} {g : StreamBooks → StreamBooks} {b : Books}
    (ha : BookAct b (ac.books.upd h g)) (hf : ∀ st, (f st).books = g st.books) :
    BookAct b (ac.upd h f).books := by
  rw [upd_books hf]
  exact ha

/-- A change of one queue, and of the mark of a stream for it. -/
theorem queue_books {ac' : Connection} {f : Stream → Stream} {l : List Handle} {mark : Bool}
    (q : SchedQueue) (hsame : ac'.books = { ac.books with schedQueue := ac'.schedQueue })
    (hself : ac'.schedQueue q = l)
    (hf : ∀ st, (f st).books = { st.books with linkedIn := (f st).linkedIn })
    (hmark : ∀ st, (f st).linkedIn q = mark)
    (hother : ∀ r, r ≠ q →
      ac'.schedQueue r = ac.schedQueue r ∧ ∀ st, (f st).linkedIn r = st.linkedIn r) :
    (ac'.upd h f).books = { ac.books with
      schedQueue := Function.update ac.schedQueue q l }.upd h (StreamBooks.mark q mark) := by
  have hqueue : ac'.schedQueue = Function.update ac.schedQueue q l := by
    funext r
    rw [Function.update_apply]
    split_ifs with hr
    · rw [hr, hself]
    · exact (hother r hr).1
  have hlinked : ∀ st, (f st).books = st.books.mark q mark := by
    intro st
    have hst : (f st).linkedIn = Function.update st.linkedIn q mark := by
      funext r
      rw [Function.update_apply]
      split_ifs with hr
      · rw [hr, hmark]
      · exact (hother r hr).2 st
    rw [hf, hst]
    rfl
  rw [upd_books hlinked, hsame, hqueue]

theorem link_act {ac' : Connection} {f : Stream → Stream} (q : SchedQueue) (front : Bool)
    (hknown : h < ac.nstreams) (hfree : (ac.streams h).linkedIn q = false)
    (hsame : ac'.books = { ac.books with schedQueue := ac'.schedQueue })
    (hself : ac'.schedQueue q = if front then h :: ac.schedQueue q else ac.schedQueue q ++ [h])
    (hf : ∀ st, (f st).books = { st.books with linkedIn := (f st).linkedIn })
    (hmark : ∀ st, (f st).linkedIn q = true)
    (hother : ∀ r, r ≠ q →
      ac'.schedQueue r = ac.schedQueue r ∧ ∀ st, (f st).linkedIn r = st.linkedIn r) :
    BookAct ac.books (ac'.upd h f).books := by
  rw [queue_books q hsame hself hf hmark hother]
  exact .link q h front hknown hfree

theorem unlink_act {ac' : Connection} {f : Stream → Stream} (q : SchedQueue) (hq : q ≠ .ready)
    (hsame : ac'.books = { ac.books with schedQueue := ac'.schedQueue })
    (hself : ac'.schedQueue q = (ac.schedQueue q).erase h)
    (hf : ∀ st, (f st).books = { st.books with linkedIn := (f st).linkedIn })
    (hmark : ∀ st, (f st).linkedIn q = false)
    (hother : ∀ r, r ≠ q →
      ac'.schedQueue r = ac.schedQueue r ∧ ∀ st, (f st).linkedIn r = st.linkedIn r) :
    BookAct ac.books (ac'.upd h f).books := by
  rw [queue_books q hsame hself hf hmark hother]
  exact .unlink q h fun hr => absurd hr hq

/-- A record of something that does not stand in the books. -/
def Obs.Off (o : Obs) : Prop :=
  queuedFrames [o] = [] ∧ linkedFrames [o] = [] ∧ closedStreams [o] = []

theorem log_books (o : Obs) (ac : Connection) : (ac.log o).books = { ac.books with
    queued := queuedFrames (ac.trace ++ [o]), linked := linkedFrames (ac.trace ++ [o])
    closed := closedStreams (ac.trace ++ [o]) } := rfl

theorem log_quiet {o : Obs} (ho : o.Off) (ac : Connection) : (ac.log o).books = ac.books := by
  obtain ⟨hqueued, hlinked, hclosed⟩ := ho
  rw [log_books]
  simp [Connection.books, hqueued, hlinked, hclosed]

end Primitives

end NgxAnytls
