import NgxAnytls.Records

/-! Which closes of a stream the client learns of. -/

namespace NgxAnytls

/-- The client was told that the stream is closed: a FIN for its id was queued, or a SYNACK with a
text, and that only for a client of version 2. -/
def ClientTold (h : Handle) (t : List Obs) : Prop :=
  ∃ f n version id, .queued f n version ∈ t ∧ .streamOpen h id ∈ t ∧
    f.header = writeFrameHeader f.cmd.toNat id (f.length - frameHeaderLen) ∧
    (f.cmd = .fin ∨ (f.cmd = .synack ∧ f.payload ≠ [] ∧ 2 ≤ version))

/-- Every stream has a record of its id. -/
def View.Opened (v : View) : Prop := ∀ h < v.nstreams, .streamOpen h (v.streams h).id ∈ v.trace

section Effects

variable {v v' : View}

/-- A stream keeps its id. -/
abbrev StreamView.SameId (st st' : StreamView) : Prop := st'.id = st.id

private theorem sameId_refl (st : StreamView) : st.SameId st := rfl

theorem Act.sameId (ha : Act v v') (h : Handle) : (v.streams h).SameId (v'.streams h) := by
  cases ha with
  | queue owner f id body route =>
    exact View.rel_enqueue sameId_refl (fun _ _ _ h₁ h₂ => h₂.trans h₁) (fun _ _ _ _ => rfl)
      (fun _ _ => rfl) h
  | retire f fs => exact View.rel_retire sameId_refl (fun _ _ _ _ => rfl) h
  | note | state | clamped | link | take | unqueueClosing | untable | pause | unblock => rfl
  | closing g | closed g | openUpstream g | connecting g | connected g | schedule g | dropOut g
  | synack g | markClosed g | dropUpstream g | lookup g | endLookup g | discard g =>
    simp only [View.dropOut, View.log_streams, View.upd_streams]
    refine View.rel_ite sameId_refl ?_ h
    rfl

theorem SendAct.sameId (ha : SendAct v v') (h : Handle) : (v.streams h).SameId (v'.streams h) := by
  cases ha with
  | chain g => rfl
  | account g | pop g | shutdown g =>
    simp only [View.log_streams, View.upd_streams]
    refine View.rel_ite sameId_refl ?_ h
    rfl

/-- Streams that keep their ids stay recorded. -/
theorem View.Opened.next (hi : v.Opened) (hn : v'.nstreams = v.nstreams)
    (hid : ∀ h, (v.streams h).SameId (v'.streams h)) (ht : v.trace ⊆ v'.trace) : v'.Opened := by
  intro h hknown
  rw [hid h]
  exact ht (hi h (hn ▸ hknown))

/-- A new stream is recorded. -/
theorem View.Opened.create (hi : v.Opened) (id : UInt32) :
    View.Opened (({ v with nstreams := v.nstreams + 1 }.upd v.nstreams fun _ =>
      Stream.view { id := id }).log (.streamOpen v.nstreams id)) := by
  intro h hknown
  simp only [View.log_streams, View.upd_streams, View.log_trace, View.upd_trace]
  split_ifs with hh
  · subst hh
    exact List.mem_append_right _ (by simp [Stream.view])
  · exact List.mem_append_left _ (hi h (lt_of_le_of_ne (Nat.le_of_lt_succ hknown) hh))

theorem DispatchAct.opened (ha : DispatchAct v v') (hs : v.Sane) (hi : v.Opened) : v'.Opened := by
  have htrace := (ha.keeps hs).trace.subset
  cases ha with
  | create id => exact hi.create id
  | psh | core | table | direct | opening => exact hi.next rfl (fun _ => rfl) htrace
  | fin g | firstPshAcc g | firstPsh g | openUot g | append g | halfClose g | deferClose g =>
    refine hi.next rfl (fun h => ?_) htrace
    simp only [View.log_streams, View.upd_streams]
    refine View.rel_ite sameId_refl ?_ h
    rfl

theorem SessionAct.opened (ha : SessionAct v v') (hs : v.Sane) (hi : v.Opened) : v'.Opened := by
  have htrace := (ha.trace_le hs).subset
  cases ha with
  | act ha => exact hi.next ha.nstreams ha.sameId htrace
  | close ha => cases ha <;> exact hi.next rfl (fun _ => rfl) htrace
  | send ha => exact hi.next ha.trace_le.2 ha.sameId htrace
  | dispatch ha => exact ha.opened hs hi
  | input hm => exact hi.next hm.nstreams (fun h => by rw [hm.streams]) htrace
  | inputLog _ _ hm => exact hi.next hm.nstreams (fun h => by rw [hm.streams]) htrace

end Effects

theorem Reaches.opened {v v' : View} (hr : Reaches v v') (hs : v.Sane) (hi : v.Opened) :
    v'.Opened :=
  hr.invariant (fun hs ha hi => ha.opened hs hi) hs hi

theorem init_opened (conf : Conf) : (Connection.init conf).view.Opened :=
  fun _ hknown => absurd hknown (Nat.not_lt_zero _)

/-- A queued frame of a stream carries its id; a SYNACK is for a client of version 2. -/
theorem run_queued (conf : Conf) (es : List (Event × Env)) {t₁ : List Obs} {f : OutFrame}
    {n version : Nat} {h : Handle} (ht : t₁ <+: (run conf es).trace)
    (hm : .queued f n version ∈ t₁) (howner : f.stream = some h) :
    (f.cmd = .synack → 2 ≤ version) ∧ ∃ id, .streamOpen h id ∈ t₁ ∧
      f.header = writeFrameHeader f.cmd.toNat id (f.length - frameHeaderLen) := by
  obtain ⟨s, u, rfl⟩ := List.append_of_mem hm
  obtain ⟨t₂, ht⟩ := ht
  obtain ⟨w, hw, -, hpre, owner, f₀, id, body, rfl, -, rfl, hbuilt, hknown, hversion, -⟩ :=
    run_record conf es (s := s) (u := u ++ t₂) (o := .queued f n version) (by rw [← ht]; simp)
  obtain rfl : owner = some h := howner
  refine ⟨hversion rfl, id, ?_, ?_⟩
  · obtain ⟨hlt, hid⟩ := hknown h rfl
    have hopened := hw.opened (init_sane conf) (init_opened conf) h hlt
    exact List.mem_append_left _ (hpre.subset (hid ▸ hopened))
  · simp only [OutFrame.prepare, Nat.add_sub_cancel]
    exact hbuilt.header

/-- A stream of an open session had a reason to be closed before its close began. -/
theorem run_close_reason (conf : Conf) (es : List (Event × Env)) (h : Handle)
    (hopen : (run conf es).closing = false) {s u : List Obs} {o : Obs}
    (ho : o = .streamClosing h ∨ o = .streamClosed h)
    (ht : (run conf es).trace = s ++ o :: u) :
    ∃ a, a <+: s ∧ .streamClosing h ∉ a ∧ CloseReason h a := by
  -- a stream that was closed before had a reason then
  induction hn : s.length using Nat.strong_induction_on generalizing s u o with
  | _ n ih =>
    by_cases hclosing : .streamClosing h ∈ s
    · obtain ⟨a, b, hsplit⟩ := List.append_of_mem hclosing
      have hlt : a.length < n := by
        rw [← hn, hsplit]
        simp
      obtain ⟨a', ha', hfirst, hreason⟩ :=
        ih a.length hlt (.inl rfl) (u := b ++ o :: u) (by rw [ht, hsplit]; simp) rfl
      exact ⟨a', ha'.trans (hsplit ▸ List.prefix_append a _), hfirst, hreason⟩
    · obtain ⟨w, hw, hrest, hpre, hallowed⟩ := run_record conf es ht
      have hmay : w.MayClose h := by rcases ho with rfl | rfl <;> exact hallowed
      have hwopen : w.closing = false := hrest.open_before (hw.sane (init_sane conf)) hopen
      rcases hmay with hc | hearlier | hreason
      · simp [hwopen] at hc
      · exact absurd (hpre.subset hearlier) hclosing
      · exact ⟨s, List.prefix_refl s, hclosing, hreason.mono hpre.subset⟩

/-- No stream is closed silently when each cause for which it is to be closed is one of which the
client is told. -/
theorem run_closed_told (conf : Conf) (es : List (Event × Env)) (h : Handle) (t₁ t₂ : List Obs)
    (ht : (run conf es).trace = t₁ ++ .streamClosed h :: t₂)
    (hopen : (run conf es).closing = false) (hfin : ¬ClientFin h t₁)
    (hcalls : ∀ s u cause version synackSent room,
      t₁ = s ++ .closeCall h cause version synackSent room :: u → .streamClosing h ∉ s →
        cause.Tells version synackSent room) : ClientTold h t₁ := by
  have hpre : t₁ <+: (run conf es).trace := ht ▸ List.prefix_append _ _
  obtain ⟨a, ha, hfirst, hreason⟩ := run_close_reason conf es h hopen (.inr rfl) ht
  rcases hreason with ⟨f, n, version, hm, hcmd, howner⟩ |
    ⟨f, n, version, hm, hcmd, howner, htext⟩ | ⟨st, hc⟩ | ⟨cause, version, sent, room, hm, huntold⟩
  · have hm' := ha.subset hm
    obtain ⟨-, id, hid, hheader⟩ := run_queued conf es hpre hm' howner
    exact ⟨f, n, version, id, hm', hid, hheader, .inl hcmd⟩
  · have hm' := ha.subset hm
    obtain ⟨hversion, id, hid, hheader⟩ := run_queued conf es hpre hm' howner
    exact ⟨f, n, version, id, hm', hid, hheader, .inr ⟨hcmd, htext, hversion hcmd⟩⟩
  · exact absurd ⟨st, ha.subset hc⟩ hfin
  · obtain ⟨b, rfl⟩ := ha
    obtain ⟨s, u, rfl⟩ := List.append_of_mem hm
    refine absurd (hcalls s (u ++ b) cause version sent room (by simp) fun hs => ?_) huntold
    exact hfirst (List.mem_append_left _ hs)

/-- The trace up to the close of the first stream. -/
def beforeClose (t : List Obs) : List Obs := t.takeWhile (· ≠ .streamClosed 0)

/-- The lookup fails, and the SYNACK that says so is sent. -/
def toldRun : List (Event × Env) :=
  [sampleOpen sampleV2 sampleDomain {}, sampleLookupFails,
    (.clientWrite, { client := [.done 1000] })]

theorem run_closed_told_v2 : ClientTold 0 (beforeClose (run sampleConf toldRun).trace) := by
  refine run_closed_told sampleConf toldRun 0 (beforeClose (run sampleConf toldRun).trace)
    [.upDiscard 0] (by decide) (by decide +kernel) ?_ ?_
  · rintro ⟨s, hs⟩
    have hnone : ∀ o ∈ beforeClose (run sampleConf toldRun).trace,
        (match o with | .clientFin .. => false | _ => true) = true := by decide
    exact absurd (hnone _ hs) Bool.false_ne_true
  · intro s u cause version sent room hsplit _
    have hnone : ∀ o ∈ beforeClose (run sampleConf toldRun).trace, (match o with
        | .closeCall _ cause version sent room =>
          cause.hasText && decide (2 ≤ version) && !sent && room
        | _ => true) = true := by decide
    have htells := hnone (.closeCall 0 cause version sent room) (hsplit ▸ by simp)
    simp only [Bool.and_eq_true, decide_eq_true_eq, Bool.not_eq_true'] at htells
    exact ⟨htells.1.1.1, htells.1.1.2, htells.1.2, htells.2⟩

/-- A client of version 1 is not told that the lookup failed. -/
def silentRun : List (Event × Env) := [sampleOpen sampleV1 sampleDomain {}, sampleLookupFails]

theorem silent_close :
    (run sampleConf silentRun).trace =
        beforeClose (run sampleConf silentRun).trace ++ [.streamClosed 0, .upDiscard 0] ∧
      (run sampleConf silentRun).closing = false ∧
      ¬ClientFin 0 (beforeClose (run sampleConf silentRun).trace) ∧
      ¬ClientTold 0 (beforeClose (run sampleConf silentRun).trace) := by
  have hnone : ∀ o ∈ beforeClose (run sampleConf silentRun).trace, (match o with
      | .clientFin .. => false
      | .queued f .. => f.cmd ≠ .fin ∧ f.cmd ≠ .synack
      | _ => true) = true := by decide
  refine ⟨by decide, by decide +kernel, fun ⟨s, hs⟩ => ?_, ?_⟩
  · exact absurd (hnone _ hs) (by simp)
  · rintro ⟨f, n, version, id, hm, -, -, hcmd⟩
    have hother := hnone _ hm
    rcases hcmd with hcmd | ⟨hcmd, -⟩ <;> simp [hcmd] at hother

end NgxAnytls
