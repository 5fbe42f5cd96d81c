import NgxAnytls.SessionRefinement

/-! Every record of a run was made in a state that allows it. -/

namespace NgxAnytls

/-- What a record says about the view in which it was made. -/
def Obs.Allowed (v : View) : Obs → Prop
  | .psh h _ | .upAppend h _ => h < v.nstreams ∧ (v.streams h).inClosed = false
  | .clientFin h s =>
    h < v.nstreams ∧ (v.streams h).closedByProtocol = false ∧ s = (v.streams h).state
  | .upDirect h _ =>
    h < v.nstreams ∧ (v.streams h).inClosed = false ∧ (v.streams h).pendingIn = []
  | .upChain h bs => bs <+: (v.streams h).backlog ∧ (v.streams h).pendingIn ≠ []
  | .upShutdown h => (v.streams h).pendingIn = [] ∧
      ((v.streams h).pendingShutdown ∨ ((v.streams h).state = .connected ∧ ClientFin h v.trace))
  | .queued f n version => ∃ owner f₀ id body,
      f = OutFrame.prepare f₀ owner ∧ n = v.pendingOutput + f.length ∧
        version = v.core.peerVersion ∧ f₀.Built id body v.trace ∧
        (∀ h, owner = some h → h < v.nstreams ∧ id = (v.streams h).id) ∧
        (owner.isSome → f₀.cmd = .synack → 2 ≤ v.core.peerVersion) ∧
        (f₀.cmd = .psh → v.pendingOutput + frameHeaderLen + f₀.length ≤ v.conf.maxPendingOutput)
  | .clamped => (∃ f fs, v.sending = f :: fs ∧ v.RetireClamps f) ∨ ∃ h, v.DropClamps h
  | .streamClosing h | .streamClosed h => v.MayClose h
  | .finalize _ => v.closing
  | _ => True

section Effects

variable {v v' : View}

/-- The records an effect adds are allowed before it. -/
def View.Records (v v' : View) : Prop := ∃ s, v'.trace = v.trace ++ s ∧ ∀ o ∈ s, o.Allowed v

theorem View.Records.none (ht : v'.trace = v.trace) : v.Records v' :=
  ⟨[], by simpa using ht, by simp⟩

theorem View.Records.one (o : Obs) (ho : o.Allowed v) (ht : v'.trace = v.trace ++ [o]) :
    v.Records v' := ⟨[o], ht, by simpa using ho⟩

theorem Act.records (ha : Act v v') : v.Records v' := by
  cases ha with
  | note o ho =>
    refine .one o ?_ rfl
    cases o <;> trivial
  | state h new => exact .one (.setState h _ new) trivial rfl
  | clamped hc => exact .one .clamped hc rfl
  | queue owner f id body route howner _ _ hroom hversion hf =>
    exact .one (.queued (f.prepare owner) (v.pendingOutput + (f.prepare owner).length)
      v.core.peerVersion) ⟨owner, f, id, body, rfl, rfl, rfl, hf, howner, hversion, hroom⟩ (by simp)
  | link =>
    refine ⟨_, rfl, fun o ho => ?_⟩
    obtain ⟨f, -, rfl⟩ := List.mem_map.mp ho
    trivial
  | take => exact .one (.clientSend _) trivial rfl
  | retire f fs => exact .none (by simp)
  | closing h _ hmay => exact .one (.streamClosing h) hmay rfl
  | closed h _ hmay => exact .one (.streamClosed h) hmay rfl
  | discard h => exact .one (.upDiscard h) trivial rfl
  | openUpstream h => exact .one (.upConnect h) trivial rfl
  | _ => exact .none rfl

theorem SendAct.records (ha : SendAct v v') : v.Records v' := by
  cases ha with
  | chain h bs hbs hp => exact .one (.upChain h bs) ⟨hbs, hp⟩ rfl
  | account h _ _ n => exact .one (.upAccount h n) trivial rfl
  | pop => exact .none rfl
  | shutdown h hp hs => exact .one (.upShutdown h) ⟨hp, .inl hs⟩ rfl

theorem DispatchAct.records (ha : DispatchAct v v') : v.Records v' := by
  cases ha with
  | psh h data hknown hin => exact .one (.psh h data) ⟨hknown, hin⟩ rfl
  | fin h hknown hc => exact .one (.clientFin h _) ⟨hknown, hc, rfl⟩ rfl
  | opening h =>
    refine ⟨[.opening h (v.streams h).state, .setState h (v.streams h).state .connecting],
      by simp [View.log], fun o ho => ?_⟩
    rcases List.mem_pair.mp ho with rfl | rfl <;> trivial
  | create id => exact .one (.streamOpen v.nstreams id) trivial rfl
  | direct h bs hknown hp hin => exact .one (.upDirect h bs) ⟨hknown, hin, hp⟩ rfl
  | append h bs hknown hin => exact .one (.upAppend h bs) ⟨hknown, hin⟩ rfl
  | halfClose h hp hstate hfin =>
    refine ⟨[.upShutdown h, .setState h (v.streams h).state .halfClosed],
      by simp [View.log, View.upd], fun o ho => ?_⟩
    rcases List.mem_pair.mp ho with rfl | rfl
    · exact ⟨hp, .inr ⟨hstate, hfin⟩⟩
    · trivial
  | core | table | firstPshAcc | firstPsh | openUot | deferClose => exact .none rfl

/-- The records of one effect. -/
theorem SessionAct.records (ha : SessionAct v v') : v.Records v' := by
  cases ha with
  | act ha => exact ha.records
  | close ha =>
    cases ha with
    | finalizing => exact .none rfl
    | finalized rc hc => exact .one (.finalize rc) hc rfl
  | send ha => exact ha.records
  | dispatch ha => exact ha.records
  | input _ ht => exact .none ht
  | inputLog o ho _ ht =>
    refine .one o ?_ ht
    cases o <;> trivial

end Effects

/-- A record of a reached trace was made in a state on the way. -/
theorem Reaches.record {v v' : View} (hr : Reaches v v') {s u : List Obs} {o : Obs}
    (ht : v'.trace = s ++ o :: u) (hlen : v.trace.length ≤ s.length) :
    ∃ w, Reaches v w ∧ Reaches w v' ∧ w.trace <+: s ∧ o.Allowed w := by
  induction hr generalizing u with
  | refl =>
    rw [ht, List.length_append, List.length_cons] at hlen
    omega
  | @tail b c hb hact ih =>
    obtain ⟨added, hadd, hallowed⟩ := hact.records
    have hbc : b.trace <+: c.trace := hadd ▸ List.prefix_append _ _
    have hsc : s <+: c.trace := ht ▸ List.prefix_append _ _
    by_cases hin : s.length < b.trace.length
    · -- the record stands before the last effect
      have hpre : s ++ [o] <+: b.trace := by
        refine List.prefix_of_prefix_length_le ?_ hbc ?_
        · exact ⟨u, by rw [ht, List.append_assoc, List.singleton_append]⟩
        · simpa using hin
      obtain ⟨u', hu'⟩ := hpre
      obtain ⟨w, hvw, hwb, hw⟩ := ih (u := u') (by rw [← hu']; simp)
      exact ⟨w, hvw, hwb.tail hact, hw⟩
    · have hbs : b.trace <+: s := List.prefix_of_prefix_length_le hbc hsc (by omega)
      have hmem : o ∈ added := by
        have heq : b.trace ++ added = s ++ o :: u := hadd.symm.trans ht
        obtain ⟨m, hm⟩ := hbs
        rw [← hm, List.append_assoc, List.append_cancel_left_eq] at heq
        rw [heq]
        simp
      exact ⟨b, hb, .single hact, hbs, hallowed o hmem⟩

/-- Every record of a run was made in a state the run passed through. -/
theorem run_record (conf : Conf) (es : List (Event × Env)) {s u : List Obs} {o : Obs}
    (ht : (run conf es).trace = s ++ o :: u) :
    ∃ w, Reaches (Connection.init conf).view w ∧ Reaches w (run conf es).view ∧ w.trace <+: s ∧
      o.Allowed w :=
  (run_reaches conf es).record ht (by simp [Connection.init, Connection.view])

theorem Reaches.sane {v v' : View} (hr : Reaches v v') (hs : v.Sane) : v'.Sane := by
  induction hr with
  | refl => exact hs
  | tail _ hstep ih => exact hstep.sane ih

/-- A session that is open was open before. -/
theorem SessionAct.open_before {v v' : View} (ha : SessionAct v v') (hs : v.Sane)
    (hopen : v'.closing = false) : v.closing = false := by
  have hmono : v.closing → v'.closing := by
    cases ha with
    | act h => exact (h.keeps hs).closing
    | close h => exact (h.keeps hs).closing
    | send h => cases h <;> exact id
    | dispatch h => exact (h.keeps hs).closing
    | input h _ => exact fun hc => h.closing ▸ hc
    | inputLog _ _ h _ => exact fun hc => h.closing ▸ hc
  exact Bool.eq_false_iff.mpr fun hc => by simp [hopen] at hmono; simp [hmono] at hc

theorem Reaches.open_before {v v' : View} (hr : Reaches v v') (hs : v.Sane) :
    v'.closing = false → v.closing = false :=
  hr.relation (R := fun a b => b.closing = false → a.closing = false) (fun _ => id)
    (fun _ hb hab hact hc => hab (hact.open_before hb hc)) hs

theorem Act.conf {v v' : View} (ha : Act v v') : v'.conf = v.conf := by
  cases ha with
  | queue => simp [View.log]
  | retire => simp
  | _ => rfl

theorem SessionAct.conf {v v' : View} (ha : SessionAct v v') : v'.conf = v.conf := by
  cases ha with
  | act ha => exact ha.conf
  | close ha => cases ha <;> rfl
  | send ha => cases ha <;> rfl
  | dispatch ha => cases ha <;> rfl
  | input hm => exact hm.conf
  | inputLog _ _ hm => exact hm.conf

theorem Reaches.conf {v v' : View} (hr : Reaches v v') (hs : v.Sane) : v'.conf = v.conf :=
  hr.relation (R := fun a b => b.conf = a.conf) (fun _ => rfl)
    (fun _ _ hab hact => hact.conf.trans hab) hs

end NgxAnytls
