import Mathlib.Algebra.BigOperators.Group.Finset.Basic
import NgxAnytls.Accounting
import NgxAnytls.SessionBooksRun

/-! The account of the backlogs of a session, over whole runs. -/

namespace NgxAnytls

namespace Books

/-- A weight summed over the streams that exist. -/
def total (w : StreamBooks → Nat) (b : Books) : Nat :=
  ∑ h ∈ Finset.range b.nstreams, w (b.streams h)

/-- The counters say what stands in the lists and marks. -/
structure Accounted (b : Books) : Prop where
  bytes : ∀ h, (b.streams h).bytes = (b.streams h).lens.sum
  pendingInput : b.pendingInput = total StreamBooks.bytes b
  blockedInput : b.blockedInputStreams = total (fun st => st.blocked.toNat) b
  fresh : ∀ h, b.nstreams ≤ h → (b.streams h).lens = [] ∧ (b.streams h).blocked = false

/-- A stream blocks input only with more than half of the limit pending. -/
def Full (b : Books) : Prop :=
  ∀ h, (b.streams h).blocked = true → b.maxPendingInput / 2 < (b.streams h).bytes

variable {b b' : Books} {h : Handle} {f : StreamBooks → StreamBooks}

theorem total_upd (w : StreamBooks → Nat) (b : Books) (f : StreamBooks → StreamBooks)
    (hknown : h < b.nstreams) :
    total w (b.upd h f) + w (b.streams h) = total w b + w (f (b.streams h)) := by
  have hmem : h ∈ Finset.range b.nstreams := Finset.mem_range.mpr hknown
  have hrest : ∑ g ∈ (Finset.range b.nstreams).erase h, w ((b.upd h f).streams g) =
      ∑ g ∈ (Finset.range b.nstreams).erase h, w (b.streams g) := by
    refine Finset.sum_congr rfl fun g hg => ?_
    rw [upd_other b f (Finset.ne_of_mem_erase hg)]
  have hold : total w b = w (b.streams h) +
      ∑ g ∈ (Finset.range b.nstreams).erase h, w (b.streams g) :=
    (Finset.add_sum_erase _ (fun g => w (b.streams g)) hmem).symm
  have hnew : total w (b.upd h f) = w (f (b.streams h)) +
      ∑ g ∈ (Finset.range b.nstreams).erase h, w (b.streams g) := by
    rw [← hrest]
    refine (Finset.add_sum_erase _ (fun g => w ((b.upd h f).streams g)) hmem).symm.trans ?_
    rw [upd_self]
  omega

theorem total_unknown (w : StreamBooks → Nat) (b : Books) (f : StreamBooks → StreamBooks)
    (hnew : b.nstreams ≤ h) : total w (b.upd h f) = total w b := by
  refine Finset.sum_congr rfl fun g hg => ?_
  have hne : g ≠ h := by
    have hlt := Finset.mem_range.mp hg
    omega
  rw [upd_other b f hne]

theorem Accounted.empty (hi : b.Accounted) (hnew : b.nstreams ≤ h) : (b.streams h).bytes = 0 := by
  rw [hi.bytes, (hi.fresh h hnew).1]
  rfl

/-- What a stream has in the books is not more than the total says. -/
theorem Accounted.bytes_le (hi : b.Accounted) (h : Handle) :
    (b.streams h).bytes ≤ b.pendingInput := by
  by_cases hknown : h < b.nstreams
  · rw [hi.pendingInput]
    exact Finset.single_le_sum (f := fun g => (b.streams g).bytes) (fun _ _ => Nat.zero_le _)
      (Finset.mem_range.mpr hknown)
  · rw [hi.empty (not_lt.mp hknown)]
    exact Nat.zero_le _

theorem Accounted.blocked_le (hi : b.Accounted) (h : Handle) :
    (b.streams h).blocked.toNat ≤ b.blockedInputStreams := by
  by_cases hknown : h < b.nstreams
  · rw [hi.blockedInput]
    exact Finset.single_le_sum (f := fun g => (b.streams g).blocked.toNat)
      (fun _ _ => Nat.zero_le _) (Finset.mem_range.mpr hknown)
  · rw [(hi.fresh h (not_lt.mp hknown)).2]
    exact Nat.zero_le _

/-- An update of one stream, with the two totals. -/
theorem Accounted.upd (hi : b.Accounted) {p q : Nat}
    (hsum : (f (b.streams h)).bytes = (f (b.streams h)).lens.sum)
    (hp : p + (b.streams h).bytes = b.pendingInput + (f (b.streams h)).bytes)
    (hq : q + (b.streams h).blocked.toNat =
      b.blockedInputStreams + (f (b.streams h)).blocked.toNat)
    (hfresh : b.nstreams ≤ h → (f (b.streams h)).lens = [] ∧ (f (b.streams h)).blocked = false) :
    ({ b with pendingInput := p, blockedInputStreams := q }.upd h f).Accounted := by
  have hstream : ∀ g, ({ b with pendingInput := p, blockedInputStreams := q }.upd h f).streams g =
      (b.upd h f).streams g := fun _ => rfl
  have htotal : ∀ w, total w ({ b with pendingInput := p, blockedInputStreams := q }.upd h f) =
      total w (b.upd h f) := fun _ => rfl
  refine ⟨?_, ?_, ?_, ?_⟩
  · intro g
    rw [hstream, upd_stream]
    split_ifs
    · exact hsum
    · exact hi.bytes g
  · show p = _
    rw [htotal]
    by_cases hknown : h < b.nstreams
    · have ht := total_upd StreamBooks.bytes b f hknown
      rw [← hi.pendingInput] at ht
      omega
    · have hnew := not_lt.mp hknown
      rw [total_unknown _ _ _ hnew, ← hi.pendingInput]
      rw [hsum, (hfresh hnew).1, hi.empty hnew] at hp
      exact hp
  · show q = _
    rw [htotal]
    by_cases hknown : h < b.nstreams
    · have ht := total_upd (fun st => st.blocked.toNat) b f hknown
      rw [← hi.blockedInput] at ht
      omega
    · have hnew := not_lt.mp hknown
      rw [total_unknown _ _ _ hnew, ← hi.blockedInput]
      rw [(hfresh hnew).2, (hi.fresh h hnew).2] at hq
      exact hq
  · intro g hg
    rw [hstream, upd_stream]
    split_ifs with hgh
    · exact hfresh (hgh ▸ hg)
    · exact hi.fresh g hg

theorem Accounted.append (hi : b.Accounted) (n : Nat) (hknown : h < b.nstreams) :
    ({ b with pendingInput := b.pendingInput + n }.upd h fun st =>
      { st with lens := st.lens ++ [n], bytes := st.bytes + n }).Accounted := by
  refine hi.upd (p := b.pendingInput + n) (q := b.blockedInputStreams) ?_ ?_ rfl fun hnew => ?_
  · rw [List.sum_append, ← hi.bytes, List.sum_singleton]
  · show b.pendingInput + n + (b.streams h).bytes = b.pendingInput + ((b.streams h).bytes + n)
    omega
  · exact absurd hknown (not_lt.mpr hnew)

theorem Accounted.pop (hi : b.Accounted) (h : Handle) : (b.pop h).Accounted := by
  have hsum := hi.bytes h
  have hle := hi.bytes_le h
  have hhead : (b.streams h).lens.headD 0 + (b.streams h).lens.tail.sum = (b.streams h).bytes := by
    rw [hsum]
    cases (b.streams h).lens with
    | nil => rfl
    | cons n ns => exact (List.sum_cons).symm
  refine hi.upd (p := b.pendingInput - (b.streams h).lens.headD 0) (q := b.blockedInputStreams)
    ?_ ?_ rfl fun hnew => ?_
  · show (b.streams h).bytes - (b.streams h).lens.headD 0 = (b.streams h).lens.tail.sum
    omega
  · show b.pendingInput - (b.streams h).lens.headD 0 + (b.streams h).bytes =
      b.pendingInput + ((b.streams h).bytes - (b.streams h).lens.headD 0)
    omega
  · obtain ⟨hnil, hblocked⟩ := hi.fresh h hnew
    exact ⟨by rw [hnil, List.tail_nil], hblocked⟩

theorem Accounted.discard (hi : b.Accounted) (h : Handle) : (b.discard h).Accounted := by
  have hle := hi.bytes_le h
  refine hi.upd (p := b.pendingInput - (b.streams h).bytes) (q := b.blockedInputStreams)
    rfl ?_ rfl fun hnew => ⟨rfl, (hi.fresh h hnew).2⟩
  show b.pendingInput - (b.streams h).bytes + (b.streams h).bytes = b.pendingInput + 0
  omega

theorem Accounted.unblock (hi : b.Accounted) (h : Handle) : (b.unblock h).Accounted := by
  refine unblock_keeps hi fun hblocked => ?_
  have hle := hi.blocked_le h
  rw [hblocked] at hle
  refine hi.upd (p := b.pendingInput) (q := b.blockedInputStreams - 1) (hi.bytes h) rfl ?_
    fun hnew => ⟨(hi.fresh h hnew).1, rfl⟩
  rw [hblocked]
  exact Nat.sub_add_cancel hle

theorem Accounted.settle (hi : b.Accounted) (h : Handle) : (b.settle h).Accounted :=
  settle_keeps hi (hi.unblock h)

theorem Accounted.block (hi : b.Accounted) (hknown : h < b.nstreams)
    (hopen : (b.streams h).blocked = false) :
    ({ b with blockedInputStreams := b.blockedInputStreams + 1 }.upd h fun st =>
      { st with blocked := true }).Accounted := by
  refine hi.upd (p := b.pendingInput) (q := b.blockedInputStreams + 1) (hi.bytes h) rfl ?_
    fun hnew => absurd hknown (not_lt.mpr hnew)
  rw [hopen]
  rfl

theorem Accounted.create (hi : b.Accounted) :
    ({ b with nstreams := b.nstreams + 1 }.upd b.nstreams fun _ => .fresh).Accounted := by
  have hstream : ∀ g, ({ b with nstreams := b.nstreams + 1 }.upd b.nstreams fun _ =>
      .fresh).streams g =
        if g = b.nstreams then .fresh else b.streams g := fun g => by
    rw [upd_stream]
  have htotal : ∀ w : StreamBooks → Nat, w .fresh = 0 →
      total w ({ b with nstreams := b.nstreams + 1 }.upd b.nstreams fun _ => .fresh) =
        total w b := by
    intro w hw
    have hold : total w (b.upd b.nstreams fun _ => .fresh) = total w b :=
      total_unknown w b _ le_rfl
    refine (Finset.sum_range_succ _ b.nstreams).trans ?_
    rw [hstream, if_pos rfl, hw]
    exact hold
  refine ⟨?_, ?_, ?_, ?_⟩
  · intro g
    rw [hstream]
    split_ifs
    · rfl
    · exact hi.bytes g
  · rw [htotal _ rfl]
    exact hi.pendingInput
  · rw [htotal _ rfl]
    exact hi.blockedInput
  · intro g hg
    rw [hstream]
    split_ifs
    · exact ⟨rfl, rfl⟩
    · exact hi.fresh g (Nat.le_of_succ_le hg)

/-- What touches only the frames of a stream. -/
theorem Accounted.frames (hi : b.Accounted) (hlens : (f (b.streams h)).lens = (b.streams h).lens)
    (hbytes : (f (b.streams h)).bytes = (b.streams h).bytes)
    (hblocked : (f (b.streams h)).blocked = (b.streams h).blocked) : (b.upd h f).Accounted := by
  refine hi.upd (p := b.pendingInput) (q := b.blockedInputStreams) ?_ ?_ ?_ fun hnew => ?_
  · rw [hlens, hbytes]
    exact hi.bytes h
  · rw [hbytes]
  · rw [hblocked]
  · rw [hlens, hblocked]
    exact hi.fresh h hnew

theorem Accounted.same (hi : b.Accounted) (hstreams : b'.streams = b.streams)
    (hn : b'.nstreams = b.nstreams) (hinput : b'.pendingInput = b.pendingInput)
    (hblocked : b'.blockedInputStreams = b.blockedInputStreams) : b'.Accounted := by
  refine ⟨?_, ?_, ?_, ?_⟩
  · rw [hstreams]
    exact hi.bytes
  · rw [hinput, total, hstreams, hn]
    exact hi.pendingInput
  · rw [hblocked, total, hstreams, hn]
    exact hi.blockedInput
  · rw [hstreams, hn]
    exact hi.fresh

theorem Accounted.linked (hi : b.Accounted) (q : SchedQueue) (h : Handle) (front : Bool) :
    (b.link q h front).Accounted :=
  Accounted.frames (hi.same rfl rfl rfl rfl) rfl rfl rfl

theorem Accounted.unlinked (hi : b.Accounted) (q : SchedQueue) (h : Handle) :
    (b.unlink q h).Accounted := Accounted.frames (hi.same rfl rfl rfl rfl) rfl rfl rfl

theorem Accounted.enter (hi : b.Accounted) (q : SchedQueue) (h : Handle) (front : Bool) :
    (b.enter q h front).Accounted := enter_keeps hi fun _ => hi.linked q h front

theorem Accounted.leave (hi : b.Accounted) (q : SchedQueue) (h : Handle) :
    (b.leave q h).Accounted := leave_keeps hi (hi.unlinked q h)

theorem Accounted.hold (hi : b.Accounted) (h : Handle) (f : OutFrame) : (b.hold h f).Accounted :=
  Accounted.frames (hi.same rfl rfl rfl rfl) rfl rfl rfl

theorem Accounted.hand (hi : b.Accounted) (h : Handle) (f : OutFrame) (fs : List OutFrame) :
    (b.hand h f fs).Accounted := Accounted.frames (hi.same rfl rfl rfl rfl) rfl rfl rfl

/-- An update of one stream. -/
theorem Full.upd (hi : b.Full) (h : Handle) (hlimit : b'.maxPendingInput = b.maxPendingInput)
    (hother : ∀ g, g ≠ h → b'.streams g = b.streams g)
    (hself : (b'.streams h).blocked = true → b.maxPendingInput / 2 < (b'.streams h).bytes) :
    b'.Full := by
  intro g hg
  rw [hlimit]
  by_cases hgh : g = h
  · subst hgh
    exact hself hg
  · rw [hother g hgh] at hg ⊢
    exact hi g hg

/-- What leaves the backlogs and the marks for them alone. -/
theorem Full.same (hi : b.Full) (hlimit : b'.maxPendingInput = b.maxPendingInput)
    (hstreams : ∀ g, (b'.streams g).blocked = (b.streams g).blocked ∧
      (b'.streams g).bytes = (b.streams g).bytes) : b'.Full := by
  intro g hg
  obtain ⟨hblocked, hbytes⟩ := hstreams g
  rw [hblocked] at hg
  rw [hlimit, hbytes]
  exact hi g hg

/-- An update of one stream that does. -/
theorem upd_backlog (b : Books) (h : Handle) {f : StreamBooks → StreamBooks}
    (hf : ∀ st, (f st).blocked = st.blocked ∧ (f st).bytes = st.bytes) (g : Handle) :
    ((b.upd h f).streams g).blocked = (b.streams g).blocked ∧
      ((b.upd h f).streams g).bytes = (b.streams g).bytes := by
  rw [upd_stream]
  split_ifs with hg
  · rw [hg]
    exact hf _
  · exact ⟨rfl, rfl⟩

theorem Full.enter (hi : b.Full) (q : SchedQueue) (h : Handle) (front : Bool) :
    (b.enter q h front).Full :=
  enter_keeps hi fun _ => hi.same rfl (upd_backlog _ h fun _ => ⟨rfl, rfl⟩)

theorem Full.leave (hi : b.Full) (q : SchedQueue) (h : Handle) : (b.leave q h).Full :=
  leave_keeps hi (hi.same rfl (upd_backlog _ h fun _ => ⟨rfl, rfl⟩))

/-- A stream that does not block input may have any backlog. -/
theorem Full.unblock (hi : ∀ g, g ≠ h → (b.streams g).blocked = true →
    b.maxPendingInput / 2 < (b.streams g).bytes) : (b.unblock h).Full := by
  intro g hg
  unfold Books.unblock at hg ⊢
  split_ifs at hg ⊢ with hblocked
  · rw [upd_stream] at hg ⊢
    split_ifs at hg ⊢ with hgh
    exact hi g hgh hg
  · have hgh : g ≠ h := fun hgh => hblocked (hgh ▸ hg)
    exact hi g hgh hg

theorem Full.settle (hi : ∀ g, g ≠ h → (b.streams g).blocked = true →
    b.maxPendingInput / 2 < (b.streams g).bytes) : (b.settle h).Full := by
  unfold Books.settle
  split_ifs with hfull
  · intro g hg
    by_cases hgh : g = h
    · exact hgh ▸ hfull
    · exact hi g hgh hg
  · exact Full.unblock hi

theorem Full.other (hi : b.Full) (p : Nat) (f : StreamBooks → StreamBooks) (g : Handle)
    (hgh : g ≠ h) (hg : (({ b with pendingInput := p }.upd h f).streams g).blocked = true) :
    b.maxPendingInput / 2 < (({ b with pendingInput := p }.upd h f).streams g).bytes := by
  rw [upd_other _ _ hgh] at hg ⊢
  exact hi g hg

end Books

theorem BookAct.accounted {b b' : Books} (ha : BookAct b b') (hi : b.Accounted) :
    b'.Accounted := by
  cases ha with
  | append h n hknown => exact hi.append n hknown
  | pop h => exact (hi.pop h).settle h
  | discard h => exact (hi.discard h).unblock h
  | block h hknown hopen => exact hi.block hknown hopen
  | create => exact hi.create
  | link q h front => exact hi.linked q h front
  | unlink q h => exact hi.unlinked q h
  | own h f front => exact (hi.hold h f).enter .ready h front
  | schedule h f fs front =>
    have hhand := (hi.leave .ready h).hand h f fs
    split_ifs
    · exact hhand.enter .ready h front
    · exact hhand
  | drop h => exact (hi.leave .ready h).frames rfl rfl rfl
  | table | control | direct | send | close => exact hi.same rfl rfl rfl rfl

theorem BookAct.full {b b' : Books} (ha : BookAct b b') (hi : b.Full) : b'.Full := by
  cases ha with
  | append h n =>
    refine hi.upd h rfl (fun _ => Books.upd_other _ _) ?_
    rw [Books.upd_self]
    exact fun hblocked => (hi h hblocked).trans_le (Nat.le_add_right _ n)
  | pop h => exact Books.Full.settle (hi.other _ _)
  | discard h => exact Books.Full.unblock (hi.other _ _)
  | block h hknown hopen hfull =>
    refine hi.upd h rfl (fun _ => Books.upd_other _ _) ?_
    rw [Books.upd_self]
    exact fun _ => (Nat.div_le_self _ 2).trans_lt hfull
  | create =>
    refine hi.upd b.nstreams rfl (fun _ => Books.upd_other _ _) ?_
    rw [Books.upd_self]
    exact nofun
  | link q h front => exact hi.same rfl (Books.upd_backlog _ h fun _ => ⟨rfl, rfl⟩)
  | unlink q h => exact hi.same rfl (Books.upd_backlog _ h fun _ => ⟨rfl, rfl⟩)
  | own h f front =>
    have hhold : (b.hold h f).Full := hi.same rfl (Books.upd_backlog _ h fun _ => ⟨rfl, rfl⟩)
    exact hhold.enter .ready h front
  | schedule h f fs front =>
    have hhand : ((b.leave .ready h).hand h f fs).Full :=
      (hi.leave .ready h).same rfl (Books.upd_backlog _ h fun _ => ⟨rfl, rfl⟩)
    split_ifs
    · exact hhand.enter .ready h front
    · exact hhand
  | drop h =>
    exact (hi.leave .ready h).same rfl (Books.upd_backlog _ h fun _ => ⟨rfl, rfl⟩)
  | table | control | direct | send | close => exact hi

theorem run_accounted (conf : Conf) (es : List (Event × Env)) : (run conf es).books.Accounted := by
  refine run_books_invariant (fun ha hi => ha.accounted hi) conf es ?_
  exact ⟨fun _ => rfl, rfl, rfl, fun _ _ => ⟨rfl, rfl⟩⟩

theorem run_full (conf : Conf) (es : List (Event × Env)) : (run conf es).books.Full :=
  run_books_invariant (fun ha hi => ha.full hi) conf es fun _ => nofun

/-- After every run the backlogs of the streams, their total and the count of the streams that
block input are what the counters say, and a stream that blocks input has more than half of the
limit pending. -/
theorem run_input_accounted (conf : Conf) (es : List (Event × Env)) :
    (∀ h, ((run conf es).streams h).pendingInBytes =
        (((run conf es).streams h).pendingIn.map fun p => p.data.length).sum) ∧
      (run conf es).pendingInput =
        ∑ h ∈ Finset.range (run conf es).nstreams, ((run conf es).streams h).pendingInBytes ∧
      (run conf es).blockedInputStreams = ((Finset.range (run conf es).nstreams).filter
        fun h => ((run conf es).streams h).inputBlocked = true).card ∧
      ∀ h, ((run conf es).streams h).inputBlocked = true →
        conf.maxPendingInput / 2 < ((run conf es).streams h).pendingInBytes := by
  have hi := run_accounted conf es
  have hconf : (run conf es).conf = conf := Reaches.conf (run_reaches conf es) (init_sane conf)
  refine ⟨hi.bytes, hi.pendingInput, hi.blockedInput.trans ?_, fun h hblocked => ?_⟩
  · rw [Finset.card_filter]
    refine Finset.sum_congr rfl fun h _ => ?_
    show ((run conf es).streams h).inputBlocked.toNat = _
    cases ((run conf es).streams h).inputBlocked <;> rfl
  · have hfull : (run conf es).conf.maxPendingInput / 2 <
        ((run conf es).streams h).pendingInBytes := run_full conf es h hblocked
    rwa [hconf] at hfull

end NgxAnytls
