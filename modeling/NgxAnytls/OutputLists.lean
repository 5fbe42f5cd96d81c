import NgxAnytls.Library.Ledger
import NgxAnytls.StreamClose

/-! The frames that wait in the lists of the session and of its streams, under every effect. -/

namespace NgxAnytls

open Library

/-- The frames that were queued and not linked yet. -/
def View.waiting (v : View) : Multiset OutFrame :=
  ↑(v.controlOut ++ v.dataOut) +
    ∑ h ∈ Finset.range v.nstreams, (↑(v.streams h).out : Multiset OutFrame)

section Effects

variable {v v' : View}

theorem View.waiting_same (hn : v'.nstreams = v.nstreams) (hcontrol : v'.controlOut = v.controlOut)
    (hdata : v'.dataOut = v.dataOut) (hout : ∀ h, (v'.streams h).out = (v.streams h).out) :
    v'.waiting = v.waiting := by
  simp [View.waiting, hn, hcontrol, hdata, hout]

/-- The list of one stream changes. -/
theorem View.waiting_upd {h : Handle} (hknown : h < v.nstreams) (f : StreamView → StreamView) :
    (v.upd h f).waiting + ↑(v.streams h).out = v.waiting + ↑(f (v.streams h)).out := by
  have hpart := sum_part (Finset.mem_range.mpr hknown)
    (f := fun i => (↑(v.streams i).out : Multiset OutFrame))
    (g := fun i => (↑((v.upd h f).streams i).out : Multiset OutFrame))
    fun j hj => by simp [hj]
  simp only [View.upd_streams, if_true] at hpart
  simp only [View.waiting, View.upd_streams, add_assoc, ← hpart]
  rfl

theorem View.waiting_count (owner : Option Handle) (f : OutFrame) :
    (v.count owner f).waiting = v.waiting := by
  cases owner with
  | none => rfl
  | some g =>
    refine View.waiting_same rfl rfl rfl fun h => ?_
    by_cases hh : h = g <;> simp [View.count, hh]

theorem View.waiting_place (f : OutFrame) (route : Route)
    (hroute : ∀ h, route = .own h → h < v.nstreams) :
    (v.place f route).waiting = f ::ₘ v.waiting := by
  cases route with
  | control =>
    simp only [View.waiting, View.place, ← Multiset.coe_add, Multiset.coe_singleton,
      ← Multiset.singleton_add]
    abel
  | data =>
    simp only [View.waiting, View.place, ← Multiset.coe_add, Multiset.coe_singleton,
      ← Multiset.singleton_add]
    abel
  | own h =>
    have hupd := View.waiting_upd (v := v) (hroute h rfl) fun st => { st with out := st.out ++ [f] }
    simp only [← Multiset.coe_add, ← add_assoc] at hupd
    refine add_right_cancel (b := (↑(v.streams h).out : Multiset OutFrame)) ?_
    rw [View.place, hupd, ← Multiset.singleton_add, Multiset.coe_singleton]
    abel

/-- A queued frame waits. -/
theorem View.waiting_enqueue {owner : Option Handle} {f : OutFrame} {route : Route}
    (howner : ∀ h, owner = some h → h < v.nstreams)
    (hroute : ∀ h, route = .own h → owner = some h) :
    (v.enqueue owner f route).waiting = f.prepare owner ::ₘ v.waiting := by
  rw [View.enqueue, View.waiting_place, View.waiting_count]
  intro h hh
  exact (View.enqueue_nstreams v owner f .control).symm ▸ howner h (hroute h hh)

/-- A scheduled frame still waits. -/
theorem View.waiting_schedule {h : Handle} {f : OutFrame} {fs : List OutFrame}
    (hknown : h < v.nstreams) (hout : (v.streams h).out = f :: fs) :
    ({ v with dataOut := v.dataOut ++ [f] }.upd h fun st => { st with out := fs }).waiting =
      v.waiting := by
  have hupd := View.waiting_upd (v := { v with dataOut := v.dataOut ++ [f] }) hknown fun st =>
    { st with out := fs }
  have hplace : View.waiting { v with dataOut := v.dataOut ++ [f] } = f ::ₘ v.waiting :=
    View.waiting_place f .data (by simp)
  rw [hplace] at hupd
  simp only [hout, ← Multiset.cons_coe, Multiset.cons_add, Multiset.add_cons] at hupd
  exact add_right_cancel ((Multiset.cons_inj_right _).mp hupd)

/-- Frames are only given up. -/
theorem View.waiting_dropOut (h : Handle) : (v.dropOut h).waiting ≤ v.waiting := by
  refine add_le_add (le_refl _) (Finset.sum_le_sum fun i _ => ?_)
  simp only [View.dropOut, View.upd_streams]
  split_ifs with hi
  · exact Multiset.zero_le _
  · exact le_refl _

theorem View.out_retire (f : OutFrame) (fs : List OutFrame) (h : Handle) :
    ((v.retire f fs).streams h).out = (v.streams h).out :=
  View.rel_retire (r := fun st st' => st'.out = st.out) (fun _ => rfl) (fun _ _ _ _ => rfl) h

theorem View.waiting_retire (f : OutFrame) (fs : List OutFrame) :
    (v.retire f fs).waiting = v.waiting := by
  refine View.waiting_same (by simp) ?_ ?_ (View.out_retire f fs)
  · unfold View.retire
    cases f.stream <;> rfl
  · unfold View.retire
    cases f.stream <;> rfl

theorem View.retire_sending (f : OutFrame) (fs : List OutFrame) : (v.retire f fs).sending = fs := by
  unfold View.retire
  cases f.stream <;> rfl

/-- A new stream has no frames. -/
theorem View.waiting_create (id : UInt32) :
    View.waiting (({ v with nstreams := v.nstreams + 1 }.upd v.nstreams fun _ =>
      Stream.view { id := id }).log (.streamOpen v.nstreams id)) = v.waiting := by
  unfold View.waiting
  refine congrArg₂ _ rfl ?_
  change ∑ h ∈ Finset.range (v.nstreams + 1), _ = _
  rw [Finset.sum_range_succ]
  simp only [View.log_streams, View.upd_streams, if_true]
  rw [Finset.sum_congr rfl fun h hh => by rw [if_neg (Finset.mem_range.mp hh).ne]]
  simp [Stream.view]

theorem View.out_le_waiting {h : Handle} (hknown : h < v.nstreams) :
    (↑(v.streams h).out : Multiset OutFrame) ≤ v.waiting :=
  (Finset.single_le_sum (f := fun i => (↑(v.streams i).out : Multiset OutFrame))
    (fun _ _ => Multiset.zero_le _) (Finset.mem_range.mpr hknown)).trans (Multiset.le_add_left _ _)

end Effects

end NgxAnytls
