import NgxAnytls.SessionBooksRun

/-! The queues of the scheduler, over whole runs. -/

namespace NgxAnytls

namespace Books

variable {b b' : Books} {h : Handle}

/-- A stream is linked in a queue once or not at all, and says which. -/
structure Linked (b : Books) : Prop where
  marked : ∀ q h, h ∈ b.schedQueue q ↔ (b.streams h).linkedIn q = true
  once : ∀ q, (b.schedQueue q).Nodup
  fresh : ∀ h, b.nstreams ≤ h → ∀ q, (b.streams h).linkedIn q = false

/-- A stream with frames in its list waits for the scheduler. -/
def Waiting (b : Books) : Prop :=
  ∀ h, (b.streams h).out ≠ [] → h < b.nstreams ∧ (b.streams h).linkedIn .ready = true

theorem mark_linkedIn (st : StreamBooks) (q r : SchedQueue) (mark : Bool) :
    (st.mark q mark).linkedIn r = if r = q then mark else st.linkedIn r :=
  Function.update_apply st.linkedIn q mark r

/-- What leaves the queues and the marks alone. -/
theorem Linked.same (hi : b.Linked) (hn : b.nstreams ≤ b'.nstreams)
    (hqueue : b'.schedQueue = b.schedQueue)
    (hstreams : ∀ h, (b'.streams h).linkedIn = (b.streams h).linkedIn) : b'.Linked := by
  refine ⟨fun q h => ?_, ?_, fun h hh q => ?_⟩
  · rw [hqueue, hstreams]
    exact hi.marked q h
  · rw [hqueue]
    exact hi.once
  · rw [hstreams]
    exact hi.fresh h (hn.trans hh) q

/-- A change of one queue, and of the mark of one stream for it. -/
theorem Linked.update (hi : b.Linked) {q : SchedQueue} {l : List Handle} {mark : Bool}
    (hmem : ∀ g, g ∈ l ↔ if g = h then mark = true else g ∈ b.schedQueue q) (hnodup : l.Nodup)
    (hfresh : b.nstreams ≤ h → mark = false) :
    ({ b with schedQueue := Function.update b.schedQueue q l }.upd h (.mark q mark)).Linked := by
  have hqueue : ∀ r, (({ b with schedQueue := Function.update b.schedQueue q l }.upd h
      (.mark q mark)).schedQueue r) = if r = q then l else b.schedQueue r := fun r =>
    Function.update_apply b.schedQueue q l r
  have hmark : ∀ g r, ((({ b with schedQueue := Function.update b.schedQueue q l }.upd h
      (.mark q mark)).streams g).linkedIn r) =
        if g = h ∧ r = q then mark else (b.streams g).linkedIn r := by
    intro g r
    rw [upd_stream]
    by_cases hg : g = h
    · rw [if_pos hg, mark_linkedIn, hg]
      simp
    · rw [if_neg hg, if_neg fun hgr => hg hgr.1]
  refine ⟨fun r g => ?_, fun r => ?_, fun g hg r => ?_⟩
  · rw [hqueue, hmark]
    by_cases hr : r = q
    · rw [if_pos hr, hmem g]
      by_cases hg : g = h
      · rw [if_pos hg, if_pos ⟨hg, hr⟩]
      · rw [if_neg hg, if_neg fun hgr => hg hgr.1, hr]
        exact hi.marked q g
    · rw [if_neg hr, if_neg fun hgr => hr hgr.2]
      exact hi.marked r g
  · rw [hqueue]
    split_ifs
    · exact hnodup
    · exact hi.once r
  · rw [hmark]
    split_ifs with hgr
    · exact hfresh (hgr.1 ▸ hg)
    · exact hi.fresh g hg r

theorem Linked.linked (hi : b.Linked) (q : SchedQueue) (front : Bool) (hknown : h < b.nstreams)
    (hfree : (b.streams h).linkedIn q = false) : (b.link q h front).Linked := by
  have hnot : h ∉ b.schedQueue q := fun hin => by
    rw [(hi.marked q h).mp hin] at hfree
    cases hfree
  refine hi.update (fun g => ?_) ?_ fun hh => absurd hknown (not_lt.mpr hh)
  · by_cases hg : g = h
    · cases front <;> simp [hg]
    · cases front <;> simp [hg]
  · cases front with
    | true => exact List.nodup_cons.mpr ⟨hnot, hi.once q⟩
    | false =>
      rw [if_neg Bool.false_ne_true]
      exact List.nodup_append.mpr ⟨hi.once q, List.nodup_singleton h, fun g hg g' hg' heq =>
        hnot (List.mem_singleton.mp hg' ▸ heq ▸ hg)⟩

theorem Linked.unlinked (hi : b.Linked) (q : SchedQueue) (h : Handle) : (b.unlink q h).Linked := by
  refine hi.update (fun g => ?_) ((hi.once q).erase h) fun _ => rfl
  rw [(hi.once q).mem_erase_iff]
  by_cases hg : g = h
  · simp [hg]
  · simp [hg]

theorem Linked.enter (hi : b.Linked) (q : SchedQueue) (front : Bool) (hknown : h < b.nstreams) :
    (b.enter q h front).Linked := enter_keeps hi fun hfree => hi.linked q front hknown hfree

theorem Linked.leave (hi : b.Linked) (q : SchedQueue) (h : Handle) : (b.leave q h).Linked :=
  leave_keeps hi (hi.unlinked q h)

/-- An update of one stream that leaves its marks alone. -/
theorem upd_linkedIn (b : Books) {f : StreamBooks → StreamBooks}
    (hf : (f (b.streams h)).linkedIn = (b.streams h).linkedIn) (g : Handle) :
    ((b.upd h f).streams g).linkedIn = (b.streams g).linkedIn := by
  rw [upd_stream]
  split_ifs with hg
  · rw [hf, hg]
  · rfl

theorem Linked.unblock (hi : b.Linked) (h : Handle) : (b.unblock h).Linked :=
  unblock_keeps hi fun _ => hi.same le_rfl rfl (upd_linkedIn _ rfl)

theorem Linked.settle (hi : b.Linked) (h : Handle) : (b.settle h).Linked :=
  settle_keeps hi (hi.unblock h)

theorem Linked.hand (hi : b.Linked) (h : Handle) (f : OutFrame) (fs : List OutFrame) :
    (b.hand h f fs).Linked := hi.same le_rfl rfl (upd_linkedIn _ rfl)

end Books

theorem BookAct.linked {b b' : Books} (ha : BookAct b b') (hi : b.Linked) : b'.Linked := by
  cases ha with
  | append h | block h => exact hi.same le_rfl rfl (Books.upd_linkedIn _ rfl)
  | pop h =>
    have hpop : (b.pop h).Linked := hi.same le_rfl rfl (Books.upd_linkedIn _ rfl)
    exact hpop.settle h
  | discard h =>
    have hdiscard : (b.discard h).Linked := hi.same le_rfl rfl (Books.upd_linkedIn _ rfl)
    exact hdiscard.unblock h
  | create =>
    have hfresh : StreamBooks.fresh.linkedIn = (b.streams b.nstreams).linkedIn := by
      funext q
      exact (hi.fresh b.nstreams le_rfl q).symm
    exact hi.same (Nat.le_succ _) rfl (Books.upd_linkedIn _ hfresh)
  | link q h front hknown hfree => exact hi.linked q front hknown hfree
  | unlink q h => exact hi.unlinked q h
  | own h f front hf hknown =>
    have hhold : (b.hold h f).Linked := hi.same le_rfl rfl (Books.upd_linkedIn _ rfl)
    exact hhold.enter .ready front hknown
  | schedule h f fs front hknown =>
    have hhand := (hi.leave .ready h).hand h f fs
    split_ifs
    · exact hhand.enter .ready front (hknown.trans_le (Books.leave_nstreams .ready).ge)
    · exact hhand
  | drop h => exact (hi.leave .ready h).same le_rfl rfl (Books.upd_linkedIn _ rfl)
  | table | control | direct | send | close => exact hi.same le_rfl rfl fun _ => rfl

namespace Books

variable {b b' : Books} {h : Handle}

theorem enter_other (q : SchedQueue) (front : Bool) {g : Handle} (hg : g ≠ h) :
    (b.enter q h front).streams g = b.streams g := by
  unfold enter
  split_ifs
  · rfl
  · rw [link_streams, if_neg hg]

theorem leave_other (q : SchedQueue) {g : Handle} (hg : g ≠ h) :
    (b.leave q h).streams g = b.streams g := by
  unfold leave
  split_ifs
  · rw [unlink_streams, if_neg hg]
  · rfl

theorem enter_self (q : SchedQueue) (front : Bool) :
    ((b.enter q h front).streams h).linkedIn q = true := by
  unfold enter
  split_ifs with hin
  · exact hin
  · rw [link_streams, if_pos rfl, mark_linkedIn, if_pos rfl]

theorem Waiting.same (hi : b.Waiting) (hn : b.nstreams ≤ b'.nstreams)
    (hstreams : ∀ g, (b'.streams g).out = (b.streams g).out ∧
      (b'.streams g).linkedIn = (b.streams g).linkedIn) : b'.Waiting := by
  intro g hg
  obtain ⟨hout, hlinked⟩ := hstreams g
  rw [hout] at hg
  rw [hlinked]
  exact ⟨(hi g hg).1.trans_le hn, (hi g hg).2⟩

/-- An update of one stream that leaves its list and its marks alone. -/
theorem upd_waiting (b : Books) {f : StreamBooks → StreamBooks}
    (hf : ∀ st, (f st).out = st.out ∧ (f st).linkedIn = st.linkedIn) (g : Handle) :
    ((b.upd h f).streams g).out = (b.streams g).out ∧
      ((b.upd h f).streams g).linkedIn = (b.streams g).linkedIn := by
  rw [upd_stream]
  split_ifs with hg
  · rw [hg]
    exact hf _
  · exact ⟨rfl, rfl⟩

theorem Waiting.unblock (hi : b.Waiting) (h : Handle) : (b.unblock h).Waiting :=
  unblock_keeps hi fun _ => hi.same le_rfl (upd_waiting _ fun _ => ⟨rfl, rfl⟩)

theorem Waiting.settle (hi : b.Waiting) (h : Handle) : (b.settle h).Waiting :=
  settle_keeps hi (hi.unblock h)

/-- Only the list or the marks of one stream change. -/
theorem Waiting.one (hi : b.Waiting) (h : Handle) (hn : b.nstreams ≤ b'.nstreams)
    (hother : ∀ g, g ≠ h → b'.streams g = b.streams g)
    (hself : (b'.streams h).out ≠ [] → h < b'.nstreams ∧ (b'.streams h).linkedIn .ready = true) :
    b'.Waiting := by
  intro g hg
  by_cases hgh : g = h
  · subst hgh
    exact hself hg
  · rw [hother g hgh] at hg ⊢
    exact ⟨(hi g hg).1.trans_le hn, (hi g hg).2⟩

end Books

theorem BookAct.waiting {b b' : Books} (ha : BookAct b b') (hi : b.Waiting) : b'.Waiting := by
  cases ha with
  | append h | block h => exact hi.same le_rfl (Books.upd_waiting _ fun _ => ⟨rfl, rfl⟩)
  | pop h =>
    have hpop : (b.pop h).Waiting := hi.same le_rfl (Books.upd_waiting _ fun _ => ⟨rfl, rfl⟩)
    exact hpop.settle h
  | discard h =>
    have hdiscard : (b.discard h).Waiting :=
      hi.same le_rfl (Books.upd_waiting _ fun _ => ⟨rfl, rfl⟩)
    exact hdiscard.unblock h
  | create =>
    refine hi.one b.nstreams (Nat.le_succ _) (fun g hg => Books.upd_other _ _ hg) fun hout => ?_
    rw [Books.upd_self] at hout
    exact absurd rfl hout
  | link q h front =>
    refine hi.one h le_rfl (fun g hg => Books.upd_other _ _ hg) fun hout => ?_
    rw [Books.link_streams, if_pos rfl] at hout ⊢
    rw [Books.mark_linkedIn]
    refine ⟨(hi h hout).1, ?_⟩
    split_ifs
    · rfl
    · exact (hi h hout).2
  | unlink q h hempty =>
    refine hi.one h le_rfl (fun g hg => Books.upd_other _ _ hg) fun hout => ?_
    rw [Books.unlink_streams, if_pos rfl] at hout ⊢
    have hq : ¬SchedQueue.ready = q := fun hq => hout (hempty hq.symm)
    rw [Books.mark_linkedIn, if_neg hq]
    exact hi h hout
  | own h f front hf hknown =>
    have hn : ((b.hold h f).enter .ready h front).nstreams = b.nstreams :=
      Books.enter_nstreams .ready front
    refine hi.one h hn.ge (fun g hg => ?_) fun _ => ?_
    · rw [Books.enter_other .ready front hg]
      exact Books.upd_other _ _ hg
    · exact ⟨hknown.trans_le hn.ge, Books.enter_self .ready front⟩
  | schedule h f fs front hknown =>
    have hn : b.nstreams ≤ ((b.leave .ready h).hand h f fs).nstreams :=
      (Books.leave_nstreams .ready).ge
    have hother : ∀ g, g ≠ h → ((b.leave .ready h).hand h f fs).streams g = b.streams g :=
      fun g hg => (Books.upd_other _ _ hg).trans (Books.leave_other .ready hg)
    split_ifs with hmore
    · refine hi.one h (hn.trans (Books.enter_nstreams .ready front).ge) (fun g hg => ?_) fun _ => ?_
      · rw [Books.enter_other .ready front hg]
        exact hother g hg
      · exact ⟨hknown.trans_le (hn.trans (Books.enter_nstreams .ready front).ge),
          Books.enter_self .ready front⟩
    · refine hi.one h hn hother fun hout => ?_
      rw [Books.hand, Books.upd_self] at hout
      exact absurd hout hmore
  | drop h =>
    refine hi.one h (Books.leave_nstreams .ready).ge (fun g hg => ?_) fun hout => ?_
    · exact (Books.upd_other _ _ hg).trans (Books.leave_other .ready hg)
    · rw [Books.giveUp, Books.upd_self] at hout
      exact absurd rfl hout
  | table | control | direct | send | close => exact hi.same le_rfl fun _ => ⟨rfl, rfl⟩

theorem run_linked (conf : Conf) (es : List (Event × Env)) : (run conf es).books.Linked := by
  refine run_books_invariant (fun ha hi => ha.linked hi) conf es ⟨fun q h => ?_, fun q => ?_, ?_⟩
  · cases q <;> exact ⟨nofun, nofun⟩
  · cases q <;> exact List.nodup_nil
  · intro h _ q
    cases q <;> rfl

theorem run_waiting (conf : Conf) (es : List (Event × Env)) : (run conf es).books.Waiting :=
  run_books_invariant (fun ha hi => ha.waiting hi) conf es fun _ hout => absurd rfl hout

/-- In the state a run leaves, a stream is linked in a queue of the scheduler exactly when its mark
says so, and once; only streams that exist are linked, and each with frames in its list is in the
ready queue. -/
theorem run_queues (conf : Conf) (es : List (Event × Env)) :
    (∀ q h, h ∈ (run conf es).schedQueue q ↔ ((run conf es).streams h).linkedIn q = true) ∧
      (∀ q, ((run conf es).schedQueue q).Nodup) ∧
      (∀ q, ∀ h ∈ (run conf es).schedQueue q, h < (run conf es).nstreams) ∧
      ∀ h, ((run conf es).streams h).out ≠ [] → h ∈ (run conf es).readyStreams := by
  have hi := run_linked conf es
  have hknown := (run_books conf es).known (init_known conf)
  refine ⟨hi.marked, hi.once, hknown.linked, fun h hout => ?_⟩
  exact (hi.marked .ready h).mpr (run_waiting conf es h hout).2

end NgxAnytls
