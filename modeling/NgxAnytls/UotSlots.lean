import NgxAnytls.UotQueue
import Mathlib.Data.Finset.Card

/-! The UoT slots of a session: which streams hold one, and what holds while they do. -/

namespace NgxAnytls

/-- What of a stream has to do with its slot. -/
structure UotSlot where
  counted : Bool
  socket : Bool
  timer : Bool
  uot : Bool
  protocol : Bool
  seen : Bool
  lookup : Bool
  live : Bool

/-- A lookup for a UoT stream is under way. -/
def Stream.uotLookup (st : Stream) : Bool :=
  st.resolverCtx && (st.resolverTarget = .uotConnect || st.resolverTarget = .uotPacket)

/-- The stream is not closed and does not wait to be. -/
def Stream.live (st : Stream) : Bool := !(st.state = .closing || st.state = .closed)

def Stream.slot (st : Stream) : UotSlot where
  counted := st.uotCounted
  socket := st.udp.isSome
  timer := st.uotTimer
  uot := st.upstreamType = .uot
  protocol := st.closedByProtocol
  seen := st.firstPshSeen
  lookup := st.uotLookup
  live := st.live

/-- A stream has a socket, an idle timer or a lookup only while it holds a slot. `closing` says
that the stream is just being closed: it may still hold its slot, or have lost it early. -/
structure UotSlot.Ok (closing : Prop) (s : UotSlot) : Prop where
  uot : s.counted = true → s.uot = true
  seen : s.counted = true → s.seen = true
  socket : s.socket = true → s.counted = true
  timer : s.timer = true → s.counted = true
  lookup : s.lookup = true → s.counted = true
  held : ¬closing → s.uot = true → s.protocol = false → s.counted = true
  live : ¬closing → s.counted = true → s.live = true

/-- What of a session has to do with the slots. -/
structure SlotSide where
  limit : Nat
  taken : Nat
  nstreams : Nat
  ht : List Slot
  slots : Handle → UotSlot

def Connection.slotSide (ac : Connection) : SlotSide where
  limit := ac.conf.maxUotStreams
  taken := ac.uotStreams
  nstreams := ac.nstreams
  ht := ac.ht
  slots h := (ac.streams h).slot

/-- The streams that hold a slot. -/
def SlotSide.holders (s : SlotSide) : Finset Handle :=
  (Finset.range s.nstreams).filter fun h => (s.slots h).counted = true

/-- The count of the slots is right and within the limit. `closing` is the stream that is just
being closed. -/
structure SlotSide.Ok (closing : Option Handle) (s : SlotSide) : Prop where
  taken : s.taken = s.holders.card
  limit : s.taken ≤ s.limit
  known : ∀ h, (s.slots h).counted = true → h < s.nstreams
  table : ∀ h, Slot.used h ∈ s.ht → h < s.nstreams
  slots : ∀ h, (s.slots h).Ok (closing = some h)

/-- A stream that had its first PSH takes no slot any more. -/
structure SlotSide.Later (s s' : SlotSide) : Prop where
  limit : s'.limit = s.limit
  nstreams : s.nstreams ≤ s'.nstreams
  seen : ∀ h < s.nstreams, (s.slots h).seen = true →
    (s'.slots h).seen = true ∧ ((s'.slots h).counted = true → (s.slots h).counted = true)

/-- The slots are as they were. -/
def SameSlots (ac ac' : Connection) : Prop := ac'.slotSide = ac.slotSide

/-- The slots stay right, and none is taken again. -/
def SlotStep (ac ac' : Connection) : Prop :=
  ac.slotSide.Ok none → ac'.slotSide.Ok none ∧ ac.slotSide.Later ac'.slotSide

/-- The same while the stream is being closed, which the client knows. -/
def ClosingStep (h : Handle) (ac ac' : Connection) : Prop :=
  ac.slotSide.Ok (some h) → ac'.slotSide.Ok (some h) ∧ ac.slotSide.Later ac'.slotSide ∧
    ((ac.slotSide.slots h).protocol = true → (ac'.slotSide.slots h).protocol = true)

section Steps

variable {ac ac' ac'' : Connection} {h : Handle} {s s' s'' : SlotSide}

theorem SlotSide.Later.refl (s : SlotSide) : s.Later s :=
  ⟨rfl, le_rfl, fun _ _ hs => ⟨hs, id⟩⟩

theorem SlotSide.Later.trans (hl : s.Later s') (hl' : s'.Later s'') : s.Later s'' := by
  refine ⟨hl'.limit.trans hl.limit, hl.nstreams.trans hl'.nstreams, fun h hknown hs => ?_⟩
  obtain ⟨hs', hc⟩ := hl.seen h hknown hs
  obtain ⟨hs'', hc'⟩ := hl'.seen h (hknown.trans_le hl.nstreams) hs'
  exact ⟨hs'', hc ∘ hc'⟩

theorem SameSlots.refl (ac : Connection) : SameSlots ac ac := rfl

theorem SameSlots.trans (hs : SameSlots ac ac') (hs' : SameSlots ac' ac'') : SameSlots ac ac'' :=
  Eq.trans hs' hs

theorem SlotStep.refl (ac : Connection) : SlotStep ac ac := fun hok => ⟨hok, .refl _⟩

theorem SlotStep.trans (hs : SlotStep ac ac') (hs' : SlotStep ac' ac'') : SlotStep ac ac'' := by
  intro hok
  obtain ⟨hok', hl⟩ := hs hok
  obtain ⟨hok'', hl'⟩ := hs' hok'
  exact ⟨hok'', hl.trans hl'⟩

theorem ClosingStep.trans (hs : ClosingStep h ac ac') (hs' : ClosingStep h ac' ac'') :
    ClosingStep h ac ac'' := by
  intro hok
  obtain ⟨hok', hl, hp⟩ := hs hok
  obtain ⟨hok'', hl', hp'⟩ := hs' hok'
  exact ⟨hok'', hl.trans hl', hp' ∘ hp⟩

theorem SameSlots.step (hs : SameSlots ac ac') : SlotStep ac ac' := by
  rw [SlotStep, hs]
  exact SlotStep.refl ac

theorem SameSlots.closing (hs : SameSlots ac ac') : ClosingStep h ac ac' := by
  rw [ClosingStep, hs]
  exact fun hok => ⟨hok, .refl _, id⟩

/-- One stream's slot is changed. -/
def SlotSide.set (h : Handle) (x : UotSlot) (s : SlotSide) : SlotSide :=
  { s with slots := Function.update s.slots h x }

theorem upd_slotSide (ac : Connection) (h : Handle) (f : Stream → Stream) :
    (ac.upd h f).slotSide = ac.slotSide.set h (f (ac.streams h)).slot := by
  have hslots : (fun g => ((ac.upd h f).streams g).slot) =
      Function.update (fun g => (ac.streams g).slot) h (f (ac.streams h)).slot := by
    funext g
    rw [Connection.upd_streams]
    by_cases hg : g = h
    · rw [if_pos hg, hg, Function.update_self]
    · rw [if_neg hg, Function.update_of_ne hg]
  show SlotSide.mk _ _ _ _ (fun g => ((ac.upd h f).streams g).slot) = _
  rw [hslots]
  rfl

@[simp] theorem SlotSide.set_set (h : Handle) (x y : UotSlot) (s : SlotSide) :
    (s.set h x).set h y = s.set h y := by
  rw [SlotSide.set, SlotSide.set, SlotSide.set]
  simp only [Function.update_idem]

@[simp] theorem SlotSide.set_self (h : Handle) (s : SlotSide) : s.set h (s.slots h) = s := by
  rw [SlotSide.set, Function.update_eq_self]

theorem sameSlots_upd {f : Stream → Stream} (hf : ∀ st, (f st).slot = st.slot) :
    SameSlots ac (ac.upd h f) := by
  rw [SameSlots, upd_slotSide, hf]
  exact SlotSide.set_self h ac.slotSide

theorem SlotSide.set_slots (h g : Handle) (x : UotSlot) (s : SlotSide) :
    (s.set h x).slots g = if g = h then x else s.slots g :=
  Function.update_apply _ _ _ _

theorem SlotSide.Later.set {x : UotSlot} (hseen : (s.slots h).seen = true → x.seen = true)
    (hc : (s.slots h).seen = true → x.counted = true → (s.slots h).counted = true) :
    s.Later (s.set h x) := by
  refine ⟨rfl, le_rfl, fun g _ hg => ?_⟩
  rw [SlotSide.set_slots]
  split_ifs with hgh
  · subst hgh
    exact ⟨hseen hg, hc hg⟩
  · exact ⟨hg, id⟩

/-- A stream is changed and keeps its slot, or stays without one. -/
theorem SlotSide.Ok.set {closing : Option Handle} {x : UotSlot} (hok : s.Ok closing)
    (hc : x.counted = (s.slots h).counted) (hx : x.Ok (closing = some h)) :
    (s.set h x).Ok closing := by
  have hcounted : ∀ g, ((s.set h x).slots g).counted = (s.slots g).counted := by
    intro g
    rw [SlotSide.set_slots]
    split_ifs with hg
    · rw [hc, hg]
    · rfl
  have hholders : (s.set h x).holders = s.holders := by
    apply Finset.filter_congr
    intro g _
    rw [hcounted]
  refine ⟨?_, hok.limit, ?_, hok.table, ?_⟩
  · rw [hholders]
    exact hok.taken
  · intro g hg
    exact hok.known g ((hcounted g).symm.trans hg)
  · intro g
    rw [SlotSide.set_slots]
    split_ifs with hg
    · rw [hg]
      exact hx
    · exact hok.slots g

/-- A slot given back, with the socket, the timer and the lookup. -/
def UotSlot.released (x : UotSlot) : UotSlot :=
  { x with counted := false, socket := false, timer := false, lookup := false }

def SlotSide.release (h : Handle) (s : SlotSide) : SlotSide :=
  { s.set h (s.slots h).released with
    taken := if (s.slots h).counted = true then s.taken - 1 else s.taken }

theorem uotClose_slotSide (h : Handle) (ac : Connection) :
    (uotClose h ac).slotSide = ac.slotSide.release h := by
  unfold uotClose closeUdp clearUotPending resolverCancel releaseUotSlot
  rw [upd_slotSide, upd_slotSide, upd_slotSide, SlotSide.set_set, SlotSide.set_set]
  simp only [Connection.upd_self]
  split_ifs with hc
  · rw [upd_slotSide, SlotSide.set_set]
    simp only [Connection.upd_self]
    have hcount : (ac.slotSide.slots h).counted = true := hc
    rw [SlotSide.release, if_pos hcount]
    rfl
  · have hcount : ¬(ac.slotSide.slots h).counted = true := hc
    have hfalse : (ac.streams h).uotCounted = false := Bool.eq_false_iff.mpr hc
    rw [SlotSide.release, if_neg hcount]
    simp only [Stream.slot, UotSlot.released, Connection.slotSide, SlotSide.set, hfalse]
    rfl

/-- A stream gives its slot back once; afterwards it may be open without one. -/
theorem SlotSide.Ok.release {closing : Option Handle} (hclosing : closing = none ∨ closing = some h)
    (hok : s.Ok closing) : (s.release h).Ok (some h) := by
  have hslot : ∀ g, (s.release h).slots g = if g = h then (s.slots h).released else s.slots g :=
    fun g => SlotSide.set_slots h g _ s
  have hholders : (s.release h).holders = s.holders.erase h := by
    ext g
    rw [SlotSide.holders, SlotSide.holders, Finset.mem_erase, Finset.mem_filter, Finset.mem_filter,
      hslot]
    by_cases hg : g = h
    · simp [hg, UotSlot.released]
    · rw [if_neg hg]
      exact ⟨fun hm => ⟨hg, hm⟩, fun hm => hm.2⟩
  refine ⟨?_, ?_, ?_, hok.table, ?_⟩
  · rw [hholders, SlotSide.release]
    show (if (s.slots h).counted = true then s.taken - 1 else s.taken) = _
    split_ifs with hc
    · have hmem : h ∈ s.holders := Finset.mem_filter.mpr ⟨Finset.mem_range.mpr (hok.known h hc), hc⟩
      rw [Finset.card_erase_of_mem hmem, hok.taken]
    · have hnot : h ∉ s.holders := fun hm => hc (Finset.mem_filter.mp hm).2
      rw [Finset.erase_eq_of_notMem hnot, hok.taken]
  · show (if (s.slots h).counted = true then s.taken - 1 else s.taken) ≤ s.limit
    have hle := hok.limit
    split_ifs <;> omega
  · intro g hg
    rw [hslot] at hg
    split_ifs at hg with hgh
    · cases hg
    · exact hok.known g hg
  · intro g
    rw [hslot]
    split_ifs with hgh
    · subst hgh
      constructor
      · exact nofun
      · exact nofun
      · exact nofun
      · exact nofun
      · exact nofun
      · exact fun hne => absurd rfl hne
      · exact fun hne => absurd rfl hne
    · have hslots := hok.slots g
      have hother : ¬closing = some g := by
        rcases hclosing with hcl | hcl
        · rw [hcl]
          exact nofun
        · rw [hcl]
          exact fun heq => hgh (Option.some.inj heq).symm
      exact ⟨hslots.uot, hslots.seen, hslots.socket, hslots.timer, hslots.lookup,
        fun _ => hslots.held hother, fun _ => hslots.live hother⟩

theorem SlotSide.Later.release (h : Handle) (s : SlotSide) : s.Later (s.release h) := by
  refine ⟨rfl, le_rfl, fun g _ hg => ?_⟩
  have hslot : (s.release h).slots g = if g = h then (s.slots h).released else s.slots g :=
    SlotSide.set_slots h g _ s
  rw [hslot]
  split_ifs with hgh
  · subst hgh
    exact ⟨hg, nofun⟩
  · exact ⟨hg, id⟩

/-- A stream that is closed for the client, without a slot, is as good as any. -/
theorem SlotSide.Ok.closed (hok : s.Ok (some h)) (hc : (s.slots h).counted = false)
    (hp : (s.slots h).protocol = true) : s.Ok none := by
  refine ⟨hok.taken, hok.limit, hok.known, hok.table, fun g => ?_⟩
  have hslots := hok.slots g
  by_cases hg : g = h
  · subst hg
    refine ⟨hslots.uot, hslots.seen, hslots.socket, hslots.timer, hslots.lookup, ?_, ?_⟩
    · intro _ _ hnot
      rw [hp] at hnot
      cases hnot
    · intro _ hcount
      rw [hc] at hcount
      cases hcount
  · have hother : ¬some h = some g := fun heq => hg (Option.some.inj heq).symm
    exact ⟨hslots.uot, hslots.seen, hslots.socket, hslots.timer, hslots.lookup,
      fun _ => hslots.held hother, fun _ => hslots.live hother⟩

theorem SlotSide.Ok.closing (hok : s.Ok none) (h : Handle) : s.Ok (some h) := by
  refine ⟨hok.taken, hok.limit, hok.known, hok.table, fun g => ?_⟩
  have hslots := hok.slots g
  exact ⟨hslots.uot, hslots.seen, hslots.socket, hslots.timer, hslots.lookup,
    fun _ => hslots.held nofun, fun _ => hslots.live nofun⟩

/-- A slot taken by an open stream of the packet type. -/
def SlotSide.take (h : Handle) (x : UotSlot) (s : SlotSide) : SlotSide :=
  { s.set h x with taken := s.taken + 1 }

theorem SlotSide.Ok.take {x : UotSlot} (hok : s.Ok none) (hknown : h < s.nstreams)
    (hfree : (s.slots h).counted = false) (hlimit : s.taken < s.limit) (hx : x.Ok False)
    (hcount : x.counted = true) : (s.take h x).Ok none := by
  have hslot : ∀ g, (s.take h x).slots g = if g = h then x else s.slots g :=
    fun g => SlotSide.set_slots h g _ s
  have hholders : (s.take h x).holders = insert h s.holders := by
    ext g
    rw [SlotSide.holders, SlotSide.holders, Finset.mem_insert, Finset.mem_filter, Finset.mem_filter,
      hslot]
    by_cases hg : g = h
    · simp only [hg, if_true, hcount, true_or, iff_true, and_true]
      exact Finset.mem_range.mpr hknown
    · rw [if_neg hg]
      exact ⟨.inr, fun hm => hm.resolve_left hg⟩
  have hnot : h ∉ s.holders := by
    intro hm
    have htrue := (Finset.mem_filter.mp hm).2
    rw [hfree] at htrue
    cases htrue
  refine ⟨?_, hlimit, ?_, hok.table, ?_⟩
  · rw [hholders, Finset.card_insert_of_notMem hnot, ← hok.taken]
    rfl
  · intro g hg
    rw [hslot] at hg
    split_ifs at hg with hgh
    · rw [hgh]
      exact hknown
    · exact hok.known g hg
  · intro g
    rw [hslot]
    by_cases hgh : g = h
    · rw [if_pos hgh]
      exact ⟨hx.uot, hx.seen, hx.socket, hx.timer, hx.lookup, fun _ => hx.held not_false,
        fun _ => hx.live not_false⟩
    · rw [if_neg hgh]
      exact hok.slots g

end Steps

end NgxAnytls
