import NgxAnytls.SessionBooksRun

/-! The order of the frames for the client, over whole runs. -/

namespace NgxAnytls

namespace Books

/-- The frames of a stream's turn that are linked, or wait to be. -/
def turn (b : Books) (h : Handle) : List OutFrame :=
  (b.linked ++ b.dataOut).filter (fun f => f.InTurn h) ++ (b.streams h).out

/-- No frame overtakes another of its stream, and none is lost while the stream is open. -/
structure Ordered (b : Books) : Prop where
  control : b.linked.filter (fun f => f.OutOfTurn) ++ b.controlOut =
    b.queued.filter fun f => f.OutOfTurn
  controlOut : ∀ f ∈ b.controlOut, f.OutOfTurn
  dataOut : ∀ f ∈ b.dataOut, ¬f.OutOfTurn
  out : ∀ h, ∀ f ∈ (b.streams h).out, f.InTurn h
  sublist : ∀ h, (b.turn h).Sublist (b.queued.filter fun f => f.InTurn h)
  whole : ∀ h, h ∉ b.closed → b.turn h = b.queued.filter fun f => f.InTurn h
  known : ∀ h, ∀ f ∈ b.queued, f.InTurn h → h < b.nstreams

end Books

theorem OutFrame.InTurn.not_out {f : OutFrame} {h : Handle} (hf : f.InTurn h) : ¬f.OutOfTurn := by
  rintro (hnone | hcmd)
  · rw [hf.1] at hnone
    cases hnone
  · exact hcmd hf.2

theorem OutFrame.OutOfTurn.not_in {f : OutFrame} (hf : f.OutOfTurn) (h : Handle) : ¬f.InTurn h :=
  fun hturn => hturn.not_out hf

theorem OutFrame.InTurn.stream_eq {f : OutFrame} {h g : Handle} (hf : f.InTurn h)
    (hg : f.InTurn g) :
    g = h := Option.some.inj (hg.1.symm.trans hf.1)

namespace Books

variable {b b' : Books} {h : Handle}

/-- What touches only backlogs keeps the order. -/
theorem Ordered.same (hi : b.Ordered) (hn : b.nstreams ≤ b'.nstreams)
    (hout : ∀ h, (b'.streams h).out = (b.streams h).out) (hcontrol : b'.controlOut = b.controlOut)
    (hdata : b'.dataOut = b.dataOut) (hqueued : b'.queued = b.queued)
    (hlinked : b'.linked = b.linked) (hclosed : ∀ h ∈ b.closed, h ∈ b'.closed) : b'.Ordered := by
  have hturn : ∀ h, b'.turn h = b.turn h := fun h => by rw [turn, turn, hlinked, hdata, hout]
  refine ⟨?_, ?_, ?_, ?_, ?_, ?_, ?_⟩
  · rw [hlinked, hcontrol, hqueued]
    exact hi.control
  · rw [hcontrol]
    exact hi.controlOut
  · rw [hdata]
    exact hi.dataOut
  · intro h
    rw [hout]
    exact hi.out h
  · intro h
    rw [hturn, hqueued]
    exact hi.sublist h
  · intro h hopen
    rw [hturn, hqueued]
    exact hi.whole h fun hin => hopen (hclosed h hin)
  · intro h f hf hin
    rw [hqueued] at hf
    exact (hi.known h f hf hin).trans_le hn

/-- An update of a stream that leaves its frames alone. -/
theorem upd_out {f : StreamBooks → StreamBooks} (hf : (f (b.streams h)).out = (b.streams h).out)
    (g : Handle) : ((b.upd h f).streams g).out = (b.streams g).out := by
  rw [upd_stream]
  split_ifs with hg
  · rw [hf, hg]
  · rfl

theorem Ordered.unblock (hi : b.Ordered) (h : Handle) : (b.unblock h).Ordered :=
  unblock_keeps hi fun _ => hi.same le_rfl (upd_out rfl) rfl rfl rfl rfl fun _ => id

theorem Ordered.settle (hi : b.Ordered) (h : Handle) : (b.settle h).Ordered :=
  settle_keeps hi (hi.unblock h)

theorem Ordered.linked (hi : b.Ordered) (q : SchedQueue) (h : Handle) (front : Bool) :
    (b.link q h front).Ordered := hi.same le_rfl (upd_out rfl) rfl rfl rfl rfl fun _ => id

theorem Ordered.unlinked (hi : b.Ordered) (q : SchedQueue) (h : Handle) :
    (b.unlink q h).Ordered := hi.same le_rfl (upd_out rfl) rfl rfl rfl rfl fun _ => id

theorem Ordered.enter (hi : b.Ordered) (q : SchedQueue) (h : Handle) (front : Bool) :
    (b.enter q h front).Ordered := enter_keeps hi fun _ => hi.linked q h front

theorem Ordered.leave (hi : b.Ordered) (q : SchedQueue) (h : Handle) : (b.leave q h).Ordered :=
  leave_keeps hi (hi.unlinked q h)

/-- Nothing was queued for a stream to come. -/
theorem Ordered.out_fresh (hi : b.Ordered) (hh : b.nstreams ≤ h) : (b.streams h).out = [] := by
  have hnone : (b.queued.filter fun f => f.InTurn h) = [] := by
    apply List.filter_eq_nil_iff.mpr
    intro f hf hin
    exact absurd (hi.known h f hf (of_decide_eq_true hin)) (not_lt.mpr hh)
  have hsub := hi.sublist h
  rw [hnone, List.sublist_nil] at hsub
  exact (List.append_eq_nil_iff.mp hsub).2

theorem Ordered.queue_control (hi : b.Ordered) {f : OutFrame} (hf : f.OutOfTurn) :
    ({ b with controlOut := b.controlOut ++ [f], queued := b.queued ++ [f] } : Books).Ordered := by
  have hkeep : ∀ h, ((b.queued ++ [f]).filter fun f => f.InTurn h) =
      b.queued.filter fun f => f.InTurn h := fun h => by simp [hf.not_in h]
  refine ⟨?_, ?_, hi.dataOut, hi.out, ?_, ?_, ?_⟩
  · simp [← hi.control, hf]
  · intro g hg
    rcases List.mem_append.mp hg with hg | hg
    · exact hi.controlOut g hg
    · exact List.mem_singleton.mp hg ▸ hf
  · intro h
    rw [hkeep]
    exact hi.sublist h
  · intro h hopen
    rw [hkeep]
    exact hi.whole h hopen
  · intro h g hg hin
    rcases List.mem_append.mp hg with hg | hg
    · exact hi.known h g hg hin
    · exact absurd (List.mem_singleton.mp hg ▸ hin) (hf.not_in h)

/-- A frame queued in its turn goes to the end of it. -/
theorem Ordered.queue_turn (hi : b.Ordered) {f : OutFrame} (hf : f.InTurn h)
    (hknown : h < b.nstreams) (hqueued : b'.queued = b.queued ++ [f])
    (hlinked : b'.linked = b.linked) (hcontrol : b'.controlOut = b.controlOut)
    (hclosed : b'.closed = b.closed) (hn : b'.nstreams = b.nstreams)
    (hdata : ∀ g ∈ b'.dataOut, ¬g.OutOfTurn) (hout : ∀ i, ∀ g ∈ (b'.streams i).out, g.InTurn i)
    (hself : b'.turn h = b.turn h ++ [f]) (hother : ∀ g, g ≠ h → b'.turn g = b.turn g) :
    b'.Ordered := by
  have hcell : ∀ g, (b'.queued.filter fun f => f.InTurn g) =
      (b.queued.filter fun f => f.InTurn g) ++ if g = h then [f] else [] := by
    intro g
    rw [hqueued, List.filter_append]
    congr 1
    by_cases hg : g = h
    · subst hg
      simp [hf]
    · have hnot : ¬f.InTurn g := fun hin => hg (hf.stream_eq hin)
      simp [hg, hnot]
  refine ⟨?_, ?_, hdata, hout, ?_, ?_, ?_⟩
  · rw [hlinked, hcontrol, hqueued, List.filter_append, hi.control]
    simp [hf.not_out]
  · rw [hcontrol]
    exact hi.controlOut
  · intro g
    rw [hcell]
    by_cases hg : g = h
    · subst hg
      rw [hself, if_pos rfl]
      exact (hi.sublist g).append_right [f]
    · rw [hother g hg, if_neg hg, List.append_nil]
      exact hi.sublist g
  · intro g hopen
    rw [hclosed] at hopen
    rw [hcell]
    by_cases hg : g = h
    · subst hg
      rw [hself, if_pos rfl, hi.whole g hopen]
    · rw [hother g hg, if_neg hg, List.append_nil]
      exact hi.whole g hopen
  · intro g f' hf' hin
    rw [hqueued] at hf'
    rw [hn]
    rcases List.mem_append.mp hf' with hf' | hf'
    · exact hi.known g f' hf' hin
    · rw [List.mem_singleton.mp hf'] at hin
      exact hf.stream_eq hin ▸ hknown

/-- Straight to `data_out`: only when nothing of the stream waits in its list. -/
theorem Ordered.direct (hi : b.Ordered) {f : OutFrame} (hf : f.InTurn h) (hknown : h < b.nstreams)
    (hempty : (b.streams h).out = []) :
    ({ b with dataOut := b.dataOut ++ [f], queued := b.queued ++ [f] } : Books).Ordered := by
  refine hi.queue_turn hf hknown rfl rfl rfl rfl rfl ?_ hi.out ?_ ?_
  · intro g hg
    rcases List.mem_append.mp hg with hg | hg
    · exact hi.dataOut g hg
    · exact List.mem_singleton.mp hg ▸ hf.not_out
  · simp [turn, hempty, hf]
  · intro g hg
    have hnot : ¬f.InTurn g := fun hin => hg (hf.stream_eq hin)
    simp [turn, hnot]

theorem Ordered.hold (hi : b.Ordered) {f : OutFrame} (hf : f.InTurn h) (hknown : h < b.nstreams) :
    (b.hold h f).Ordered := by
  refine hi.queue_turn hf hknown rfl rfl rfl rfl rfl hi.dataOut ?_ ?_ ?_
  · intro i g hg
    rw [Books.hold, upd_stream] at hg
    split_ifs at hg with hgi
    · subst hgi
      rcases List.mem_append.mp hg with hg | hg
      · exact hi.out i g hg
      · exact List.mem_singleton.mp hg ▸ hf
    · exact hi.out i g hg
  · rw [turn, Books.hold, upd_self, ← List.append_assoc]
    rfl
  · intro g hg
    rw [turn, Books.hold, upd_other _ _ hg]
    rfl

/-- The scheduler takes the first frame of a stream's list. -/
theorem Ordered.hand (hi : b.Ordered) {f : OutFrame} {fs : List OutFrame}
    (hout : (b.streams h).out = f :: fs) : (b.hand h f fs).Ordered := by
  have hf : f.InTurn h := hi.out h f (hout ▸ List.mem_cons_self)
  have hturn : ∀ g, (b.hand h f fs).turn g = b.turn g := by
    intro g
    rw [turn, Books.hand, upd_stream]
    by_cases hg : g = h
    · subst hg
      simp [turn, Books.upd, hf, hout]
    · have hnot : ¬f.InTurn g := fun hin => hg (hf.stream_eq hin)
      simp [turn, Books.upd, hnot, hg]
  refine ⟨hi.control, hi.controlOut, ?_, ?_, ?_, ?_, hi.known⟩
  · intro g hg
    rcases List.mem_append.mp hg with hg | hg
    · exact hi.dataOut g hg
    · exact List.mem_singleton.mp hg ▸ hf.not_out
  · intro i g hg
    rw [Books.hand, upd_stream] at hg
    split_ifs at hg with hgi
    · subst hgi
      exact hi.out i g (hout ▸ List.mem_cons_of_mem f hg)
    · exact hi.out i g hg
  · intro g
    rw [hturn]
    exact hi.sublist g
  · intro g hopen
    rw [hturn]
    exact hi.whole g hopen

/-- The control frames go first, and are in the turn of no stream. -/
theorem Ordered.send (hi : b.Ordered) :
    ({ b with
      linked := b.linked ++ (b.controlOut ++ b.dataOut), controlOut := [], dataOut := [] } :
        Books).Ordered := by
  have hcontrol : (b.controlOut.filter fun f => f.OutOfTurn) = b.controlOut :=
    List.filter_eq_self.mpr fun f hf => decide_eq_true (hi.controlOut f hf)
  have hdata : (b.dataOut.filter fun f => f.OutOfTurn) = [] :=
    List.filter_eq_nil_iff.mpr fun f hf hout => hi.dataOut f hf (of_decide_eq_true hout)
  have hturn : ∀ h, ({ b with
      linked := b.linked ++ (b.controlOut ++ b.dataOut), controlOut := [], dataOut := [] } :
        Books).turn h = b.turn h := by
    intro h
    have hnone : (b.controlOut.filter fun f => f.InTurn h) = [] :=
      List.filter_eq_nil_iff.mpr fun f hf hin =>
        (hi.controlOut f hf).not_in h (of_decide_eq_true hin)
    simp [turn, hnone]
  refine ⟨?_, List.forall_mem_nil _, List.forall_mem_nil _, hi.out, ?_, ?_, hi.known⟩
  · rw [List.filter_append, List.filter_append, hcontrol, hdata, List.append_nil, List.append_nil]
    exact hi.control
  · intro h
    rw [hturn]
    exact hi.sublist h
  · intro h hopen
    rw [hturn]
    exact hi.whole h hopen

/-- A stream that is closed loses the end of its turn. -/
theorem Ordered.drop (hi : b.Ordered) (hclosed : h ∈ b.closed) :
    (b.upd h fun st => { st with out := [] }).Ordered := by
  have hother : ∀ g, g ≠ h → (b.upd h fun st => { st with out := [] }).turn g = b.turn g := by
    intro g hg
    rw [turn, upd_other _ _ hg]
    rfl
  refine ⟨hi.control, hi.controlOut, hi.dataOut, ?_, ?_, ?_, hi.known⟩
  · intro i g hg
    rw [upd_stream] at hg
    split_ifs at hg with hgi
    · cases hg
    · exact hi.out i g hg
  · intro g
    by_cases hg : g = h
    · subst hg
      have hcut : ((b.upd g fun st => { st with out := [] }).turn g).Sublist (b.turn g) := by
        rw [turn, upd_self, List.append_nil]
        exact List.sublist_append_left _ _
      exact hcut.trans (hi.sublist g)
    · rw [hother g hg]
      exact hi.sublist g
  · intro g hopen
    have hg : g ≠ h := fun hg => hopen (hg ▸ hclosed)
    rw [hother g hg]
    exact hi.whole g hopen

end Books

theorem BookAct.ordered {b b' : Books} (ha : BookAct b b') (hi : b.Ordered) : b'.Ordered := by
  cases ha with
  | append | block => exact hi.same le_rfl (Books.upd_out rfl) rfl rfl rfl rfl fun _ => id
  | pop h =>
    have hpop : (b.pop h).Ordered :=
      hi.same le_rfl (Books.upd_out rfl) rfl rfl rfl rfl fun _ => id
    exact hpop.settle h
  | discard h =>
    have hdiscard : (b.discard h).Ordered :=
      hi.same le_rfl (Books.upd_out rfl) rfl rfl rfl rfl fun _ => id
    exact hdiscard.unblock h
  | create =>
    have hfresh := hi.out_fresh le_rfl
    exact hi.same (Nat.le_succ _) (Books.upd_out hfresh.symm) rfl rfl rfl rfl fun _ => id
  | table => exact hi.same le_rfl (fun _ => rfl) rfl rfl rfl rfl fun _ => id
  | link q h front => exact hi.linked q h front
  | unlink q h => exact hi.unlinked q h
  | control f hf => exact hi.queue_control hf
  | direct h f hf hknown hout => exact hi.direct hf hknown hout
  | own h f front hf hknown => exact (hi.hold hf hknown).enter .ready h front
  | schedule h f fs front hknown hout =>
    have hhand := (hi.leave .ready h).hand ((Books.leave_out .ready h).trans hout)
    split_ifs
    · exact hhand.enter .ready h front
    · exact hhand
  | send => exact hi.send
  | close h =>
    exact hi.same le_rfl (fun _ => rfl) rfl rfl rfl rfl fun _ => List.mem_append_left [h]
  | drop h hclosed =>
    have hkept : (b.leave .ready h).closed = b.closed := by
      unfold Books.leave
      split_ifs <;> rfl
    exact (hi.leave .ready h).drop (hkept ▸ hclosed)

theorem run_ordered (conf : Conf) (es : List (Event × Env)) : (run conf es).books.Ordered := by
  refine run_books_invariant (fun ha hi => ha.ordered hi) conf es ?_
  exact ⟨rfl, List.forall_mem_nil _, List.forall_mem_nil _, fun _ => List.forall_mem_nil _,
    fun _ => List.Sublist.refl [], fun _ _ => rfl, fun _ => List.forall_mem_nil _⟩

private theorem mem_closedStreams {t : List Obs} {h : Handle} :
    h ∈ closedStreams t ↔ .streamClosed h ∈ t := by
  rw [closedStreams, List.mem_filterMap]
  constructor
  · rintro ⟨o, ho, heq⟩
    cases o with
    | streamClosed g => exact Option.some.inj heq ▸ ho
    | _ => cases heq
  · exact fun ho => ⟨_, ho, rfl⟩

/-- What the client socket was given and is still to be given are the linked frames. The PSH and
FIN frames of a stream were linked in the order in which they were queued, and until the stream is
closed those that are not linked wait, in this order, in `data_out` and in its list; a close gives
up some that wait. The other frames keep their order too, and none is given up. -/
structure OutputOrder (ac : Connection) : Prop where
  sent : clientSent ac.trace ++ ac.unsent = (linkedFrames ac.trace).flatMap OutFrame.rest
  control : (queuedFrames ac.trace).filter (fun f => f.OutOfTurn) =
    (linkedFrames ac.trace).filter (fun f => f.OutOfTurn) ++ ac.controlOut
  turn : ∀ h, .streamClosed h ∉ ac.trace →
    (queuedFrames ac.trace).filter (fun f => f.InTurn h) =
      (linkedFrames ac.trace).filter (fun f => f.InTurn h) ++
        (ac.dataOut.filter (fun f => f.InTurn h) ++ (ac.streams h).out)
  closed : ∀ h, ((linkedFrames ac.trace).filter (fun f => f.InTurn h) ++
      (ac.dataOut.filter (fun f => f.InTurn h) ++ (ac.streams h).out)).Sublist
        ((queuedFrames ac.trace).filter fun f => f.InTurn h)

/-- After every run the frames for the client are in order. -/
theorem run_output_order (conf : Conf) (es : List (Event × Env)) : OutputOrder (run conf es) := by
  have hi := run_ordered conf es
  have hturn : ∀ h, (run conf es).books.turn h =
      (linkedFrames (run conf es).trace).filter (fun f => f.InTurn h) ++
        ((run conf es).dataOut.filter (fun f => f.InTurn h) ++ ((run conf es).streams h).out) := by
    intro h
    rw [Books.turn, List.filter_append, List.append_assoc]
    rfl
  refine ⟨(run_wired conf es).sent, hi.control.symm, fun h hopen => ?_, fun h => ?_⟩
  · rw [← hturn]
    exact (hi.whole h fun hin => hopen (mem_closedStreams.mp hin)).symm
  · rw [← hturn]
    exact hi.sublist h

end NgxAnytls
