import NgxAnytls.SessionRefinement

/-! The states of a stream only move forward, as long as no lookup is answered before it is
reported pending. -/

namespace NgxAnytls

namespace StreamState.Before

theorem refl (s : StreamState) : s.Before s := by cases s <;> decide

theorem trans {a b c : StreamState} (hab : a.Before b) (hbc : b.Before c) : a.Before c := by
  revert hab hbc
  cases a <;> cases b <;> cases c <;> decide

end StreamState.Before

/-- Whenever a lookup was reported pending, the stream had no upstream connection that was made or
closed meanwhile. -/
def OpensInOrder (t : List Obs) : Prop :=
  ∀ h s, .opening h s ∈ t → s = .init ∨ s = .connecting

def Obs.opensInOrder : Obs → Bool
  | .opening _ s => s = .init ∨ s = .connecting
  | _ => true

instance (t : List Obs) : Decidable (OpensInOrder t) :=
  decidable_of_iff (∀ o ∈ t, o.opensInOrder)
    ⟨fun ho h s hm => by simpa [Obs.opensInOrder] using ho _ hm, fun ho o hm => by
      cases o with
      | opening h s => simpa [Obs.opensInOrder] using ho h s hm
      | _ => rfl⟩

/-- Every record of a state that was set respects the order. -/
def StatesOrdered (t : List Obs) : Prop := ∀ h old new, .setState h old new ∈ t → old.Before new

theorem OpensInOrder.mono {t t' : List Obs} (ho : OpensInOrder t') (ht : t ⊆ t') : OpensInOrder t :=
  fun h s hm => ho h s (ht hm)

section Effects

variable {v v' : View}

/-- A stream before and after an effect. -/
abbrev StreamView.Forward (st st' : StreamView) : Prop := st.state.Before st'.state

theorem StreamView.Forward.of_eq {st st' : StreamView} (h : st'.state = st.state) :
    st.Forward st' := by
  unfold StreamView.Forward
  rw [h]
  exact .refl _

private theorem forward_refl (st : StreamView) : st.Forward st := .refl _

theorem Act.forward (ha : Act v v') (ho : OpensInOrder v.trace) (h : Handle) :
    (v.streams h).Forward (v'.streams h) := by
  cases ha with
  | queue owner f id body route =>
    exact View.rel_enqueue forward_refl (fun _ _ _ => .trans) (fun _ _ _ _ => .of_eq rfl)
      (fun _ _ => .of_eq rfl) h
  | retire f fs => exact View.rel_retire forward_refl (fun _ _ _ _ => .of_eq rfl) h
  | note | state | clamped | link | take | unqueueClosing | untable | pause | unblock =>
    exact forward_refl _
  | closing g _ _ _ hstate =>
    have hnext : (v.streams g).state.Before .closing := by
      cases he : (v.streams g).state <;> first | exact absurd he hstate | decide
    simp only [View.log_streams, View.upd_streams]
    exact View.rel_ite forward_refl hnext h
  | closed g =>
    have hnext : (v.streams g).state.Before .closed := by cases (v.streams g).state <;> decide
    simp only [View.log_streams, View.upd_streams]
    exact View.rel_ite forward_refl hnext h
  | openUpstream g _ _ _ hearly =>
    have hnext : (v.streams g).state.Before .connecting := by
      rcases hearly with he | he <;> rw [he] <;> trivial
    simp only [View.log_streams, View.upd_streams]
    exact View.rel_ite forward_refl hnext h
  | connecting g _ _ hopening =>
    have hnext : (v.streams g).state.Before .connecting := by
      obtain ⟨t, ht⟩ := hopening
      have hm : .opening g (v.streams g).state ∈ v.trace := by
        rw [ht]
        simp
      rcases ho g _ hm with he | he <;> rw [he] <;> trivial
    simp only [View.upd_streams]
    exact View.rel_ite forward_refl hnext h
  | connected g _ hstate =>
    have hnext : (v.streams g).state.Before .connected := by rw [hstate]; trivial
    simp only [View.upd_streams]
    exact View.rel_ite forward_refl hnext h
  | schedule g | dropOut g | synack g | markClosed g | dropUpstream g | lookup g | endLookup g
  | discard g =>
    simp only [View.dropOut, View.log_streams, View.upd_streams]
    refine View.rel_ite forward_refl ?_ h
    exact .of_eq rfl

theorem SendAct.forward (ha : SendAct v v') (h : Handle) :
    (v.streams h).Forward (v'.streams h) := by
  cases ha with
  | chain g => exact forward_refl _
  | account g | pop g | shutdown g =>
    simp only [View.log_streams, View.upd_streams]
    refine View.rel_ite forward_refl ?_ h
    exact .of_eq rfl

theorem DispatchAct.forward (ha : DispatchAct v v') (h : Handle) (hknown : h < v.nstreams) :
    (v.streams h).Forward (v'.streams h) := by
  cases ha with
  | create id =>
    simp only [View.log_streams, View.upd_streams]
    rw [if_neg hknown.ne]
    exact forward_refl _
  | openUot g _ _ _ hearly =>
    have hnext : (v.streams g).state.Before .connected := by
      rcases hearly with he | he <;> rw [he] <;> trivial
    simp only [View.upd_streams]
    exact View.rel_ite forward_refl hnext h
  | halfClose g _ hstate | deferClose g _ hstate =>
    have hnext : (v.streams g).state.Before .halfClosed := by
      rw [hstate]
      decide
    simp only [View.log_streams, View.upd_streams]
    exact View.rel_ite forward_refl hnext h
  | append g | fin g | firstPshAcc g | firstPsh g =>
    simp only [View.log_streams, View.upd_streams]
    refine View.rel_ite forward_refl ?_ h
    exact .of_eq rfl
  | psh | core | opening | table | direct => exact forward_refl _

/-- One effect moves the states of known streams forward. -/
theorem SessionAct.forward (ha : SessionAct v v') (ho : OpensInOrder v.trace) (h : Handle)
    (hknown : h < v.nstreams) : (v.streams h).Forward (v'.streams h) := by
  cases ha with
  | act ha => exact ha.forward ho h
  | close ha => cases ha <;> exact forward_refl _
  | send ha => exact ha.forward h
  | dispatch ha => exact ha.forward h hknown
  | input hm => exact hm.streams ▸ forward_refl _
  | inputLog _ _ hm => exact hm.streams ▸ forward_refl _

theorem StatesOrdered.mono {t t' : List Obs} (ho : StatesOrdered t') (ht : t ⊆ t') :
    StatesOrdered t := fun h old new hm => ho h old new (ht hm)

theorem StatesOrdered.append {t s : List Obs} (ht : StatesOrdered t) (hs : StatesOrdered s) :
    StatesOrdered (t ++ s) := by
  intro h old new hm
  rcases List.mem_append.mp hm with hm | hm
  · exact ht h old new hm
  · exact hs h old new hm

/-- Records of other things are ordered. -/
theorem statesOrdered_of_none {s : List Obs} (hs : ∀ h old new, .setState h old new ∉ s) :
    StatesOrdered s := fun h old new hm => absurd hm (hs h old new)

private theorem statesOrdered_single {h : Handle} {old new : StreamState} (hb : old.Before new) :
    StatesOrdered [.setState h old new] := by
  intro g old' new' hm
  cases List.mem_singleton.mp hm
  exact hb

theorem Obs.IsNote.ordered {o : Obs} (ho : o.IsNote) : StatesOrdered [o] := by
  refine statesOrdered_of_none fun h old new hm => ?_
  cases List.mem_singleton.mp hm
  exact ho

theorem Obs.IsInput.ordered {o : Obs} (ho : o.IsInput) : StatesOrdered [o] := by
  refine statesOrdered_of_none fun h old new hm => ?_
  cases List.mem_singleton.mp hm
  exact ho

/-- A record of another kind is ordered. -/
theorem StatesOrdered.add {t : List Obs} {o : Obs} (ht : StatesOrdered t)
    (ho : ∀ h old new, o ≠ .setState h old new) : StatesOrdered (t ++ [o]) :=
  ht.append (statesOrdered_of_none fun h old new hm => ho h old new (List.mem_singleton.mp hm).symm)

theorem Act.ordered (ha : Act v v') (ht : StatesOrdered v.trace) : StatesOrdered v'.trace := by
  cases ha with
  | note o ho => exact ht.append ho.ordered
  | state h new hnew => exact ht.append (statesOrdered_single hnew)
  | link =>
    refine ht.append (statesOrdered_of_none fun h old new hm => ?_)
    obtain ⟨f, -, hf⟩ := List.mem_map.mp hm
    cases hf
  | queue =>
    rw [View.log_trace, View.enqueue_trace]
    exact ht.add (by simp)
  | retire =>
    rw [View.retire_trace]
    exact ht
  | clamped | take | closing | closed | discard | openUpstream => exact ht.add (by simp)
  | _ => exact ht

theorem SendAct.ordered (ha : SendAct v v') (ht : StatesOrdered v.trace) :
    StatesOrdered v'.trace := by
  cases ha with
  | pop => exact ht
  | _ => exact ht.add (by simp)

/-- A lookup reported pending in an early state leads forward. -/
theorem DispatchAct.ordered (ha : DispatchAct v v') (ht : StatesOrdered v.trace)
    (ho : OpensInOrder v'.trace) : StatesOrdered v'.trace := by
  cases ha with
  | opening h =>
    have hnext : (v.streams h).state.Before .connecting := by
      rcases ho h (v.streams h).state (by simp) with he | he <;> rw [he] <;> trivial
    exact (ht.add (by simp)).append (statesOrdered_single hnext)
  | halfClose h _ hstate =>
    have hnext : (v.streams h).state.Before .halfClosed := by
      rw [hstate]
      decide
    exact (ht.add (by simp)).append (statesOrdered_single hnext)
  | psh | fin | create | direct | append => exact ht.add (by simp)
  | core | table | firstPshAcc | firstPsh | openUot | deferClose => exact ht

theorem SessionAct.ordered (ha : SessionAct v v') (ht : StatesOrdered v.trace)
    (ho : OpensInOrder v'.trace) : StatesOrdered v'.trace := by
  cases ha with
  | act ha => exact ha.ordered ht
  | close ha =>
    cases ha with
    | finalizing => exact ht
    | finalized => exact ht.add (by simp)
  | send ha => exact ha.ordered ht
  | dispatch ha => exact ha.ordered ht ho
  | input _ htrace => exact htrace ▸ ht
  | inputLog o hin _ htrace => exact htrace ▸ ht.append hin.ordered

end Effects

/-- Effects keep the records ordered. -/
theorem Reaches.ordered {v v' : View} (hr : Reaches v v') (hs : v.Sane)
    (ht : StatesOrdered v.trace) : OpensInOrder v'.trace → StatesOrdered v'.trace :=
  hr.invariant (I := fun v => OpensInOrder v.trace → StatesOrdered v.trace)
    (fun hs ha hi ho => ha.ordered (hi (ho.mono (ha.trace_le hs).subset)) ho) hs fun _ => ht

/-- Effects move the states of known streams forward. -/
theorem Reaches.forward {v v' : View} (hr : Reaches v v') (hs : v.Sane) :
    OpensInOrder v'.trace → ∀ h < v.nstreams, (v.streams h).Forward (v'.streams h) := by
  refine (hr.relation (R := fun v v' => v.nstreams ≤ v'.nstreams ∧ (OpensInOrder v'.trace →
    ∀ h < v.nstreams, (v.streams h).Forward (v'.streams h))) ?_ ?_ hs).2
  · exact fun v => ⟨le_refl _, fun _ h _ => forward_refl _⟩
  · intro a b c ha hb hab hact
    refine ⟨hab.1.trans (hact.nstreams_le hb), fun ho h hknown => ?_⟩
    have ho' : OpensInOrder b.trace := ho.mono (hact.trace_le hb).subset
    exact (hab.2 ho' h hknown).trans (hact.forward ho' h (hknown.trans_le hab.1))

/-- The states of every stream only move forward, in its records and between any two events. -/
theorem run_states_forward (conf : Conf) (es es' : List (Event × Env))
    (ho : OpensInOrder (run conf (es ++ es')).trace) :
    StatesOrdered (run conf (es ++ es')).trace ∧
      ∀ h < (run conf es).nstreams,
        ((run conf es).streams h).state.Before ((run conf (es ++ es')).streams h).state := by
  have hr := run_reaches_append conf es es'
  refine ⟨(run_reaches conf _).ordered (init_sane conf) ?_ ho,
    hr.forward (run_sane conf es) ho⟩
  exact fun h old new hm => absurd hm (by simp [Connection.init, Connection.view])

theorem run_states_forward_lookup :
    StatesOrdered (run sampleConf ([sampleOpen sampleV2 sampleDomain {}] ++
        [sampleLookupFails])).trace ∧
      ∀ h < (run sampleConf [sampleOpen sampleV2 sampleDomain {}]).nstreams,
        ((run sampleConf [sampleOpen sampleV2 sampleDomain {}]).streams h).state.Before
          ((run sampleConf ([sampleOpen sampleV2 sampleDomain {}] ++
            [sampleLookupFails])).streams h).state :=
  run_states_forward sampleConf _ _ (by decide)

/-- A lookup that fails before `ngx_resolve_name` returns leaves the closed stream connecting. -/
theorem failed_lookup_reopens :
    ¬StatesOrdered (run sampleConf
      [sampleOpen sampleV2 sampleDomain { lookup := [.done none] }]).trace := by
  have hm : Obs.setState 0 .closing .connecting ∈ (run sampleConf
      [sampleOpen sampleV2 sampleDomain { lookup := [.done none] }]).trace := by decide
  exact fun ho => absurd (ho 0 _ _ hm) (by decide)

end NgxAnytls
