import NgxAnytls.Session
import NgxAnytls.Library.Probing
import Mathlib.Data.List.Perm.Subperm

/-! The stream table is a finite map from ids to the streams that are not closed. -/

namespace NgxAnytls

open Library.Probing

/-- The stream table as the code keeps it: the cells, the list of the streams in it, their number,
and of every stream its id and whether it is closed. -/
structure StreamTable where
  maxStreams : Nat
  ht : List Slot
  streamList : List Handle
  activeStreams : Nat
  nstreams : Nat
  id : Handle → UInt32
  closed : Handle → Bool

def Connection.table (ac : Connection) : StreamTable where
  maxStreams := ac.conf.maxStreams
  ht := ac.ht
  streamList := ac.streamList
  activeStreams := ac.activeStreams
  nstreams := ac.nstreams
  id h := (ac.streams h).id
  closed h := (ac.streams h).state = .closed

namespace StreamTable

variable {t : StreamTable} {g h : Handle} {id : UInt32} {idx i : Nat}

def cell (t : StreamTable) (i : Nat) : Slot := t.ht.getD i .free

/-- The first cell of the probe path of an id. -/
def start (t : StreamTable) (id : UInt32) : Nat := id.toNat % t.ht.length

/-- A stream in the table that is closed: its close has not taken it out yet. -/
def Stale (t : StreamTable) (g : Handle) : Prop := g ∈ t.streamList ∧ t.closed g = true

/-- What the code keeps true of the table. -/
structure Wf (t : StreamTable) : Prop where
  size : ∃ k, t.ht.length = 2 ^ k
  room : t.maxStreams < t.ht.length
  cells : ∀ g, g ∈ t.streamList ↔ ∃ i, t.cell i = .used g
  chain : ∀ i g, t.cell i = .used g →
    Reaches t.ht.length (fun j => t.cell j = .free) (t.start (t.id g)) i
  once : ∀ i j g, t.cell i = .used g → t.cell j = .used g → i = j
  ids : ∀ g ∈ t.streamList, ∀ g' ∈ t.streamList, t.id g = t.id g' → g = g'
  nodup : t.streamList.Nodup
  count : t.activeStreams = t.streamList.length
  limit : t.activeStreams ≤ t.maxStreams
  known : ∀ g ∈ t.streamList, g < t.nstreams
  live : ∀ g < t.nstreams, t.closed g = false → g ∈ t.streamList

theorem Wf.pos (hw : t.Wf) : 0 < t.ht.length := by
  obtain ⟨k, hk⟩ := hw.size
  exact hk ▸ Nat.two_pow_pos k

theorem Wf.start_lt (hw : t.Wf) (id : UInt32) : t.start id < t.ht.length := Nat.mod_lt _ hw.pos

theorem lt_of_used (h : t.cell i = .used g) : i < t.ht.length := by
  by_contra hi
  rw [cell, List.getD_eq_getElem?_getD, List.getElem?_eq_none (by omega)] at h
  cases h

theorem cell_set (t : StreamTable) (s : Slot) (hidx : idx < t.ht.length) (i : Nat) :
    (t.ht.set idx s).getD i .free = if i = idx then s else t.cell i := by
  rw [List.getD_eq_getElem?_getD, List.getElem?_set, cell, List.getD_eq_getElem?_getD]
  by_cases h : idx = i
  · simp [h, h ▸ hidx]
  · simp [h, Ne.symm h]

/-- What a cell says to a search for an id: nothing, that there is no such stream, or the stream. -/
def findStop (t : StreamTable) (id : UInt32) (i : Nat) : Option (Option Handle) :=
  match t.cell i with
  | .free => some none
  | .tomb => none
  | .used h => if t.id h = id then some (some h) else none

def find (t : StreamTable) (id : UInt32) : Option Handle :=
  (walk t.ht.length (t.findStop id) t.ht.length (t.start id)).join

theorem findStop_used (hstop : t.findStop id i = some (some g)) :
    t.cell i = .used g ∧ t.id g = id := by
  unfold findStop at hstop
  split at hstop
  · cases hstop
  · cases hstop
  · next g' hcell =>
    split_ifs at hstop with hid
    · cases hstop
      exact ⟨hcell, hid⟩

/-- A search finds the stream of that id in the list, and only that. -/
theorem Wf.find_iff (hw : t.Wf) : t.find id = some g ↔ g ∈ t.streamList ∧ t.id g = id := by
  have hsound : ∀ g, t.find id = some g → g ∈ t.streamList ∧ t.id g = id := by
    intro g hfind
    rw [find, Option.join_eq_some_iff] at hfind
    obtain ⟨i, -, hstop, -⟩ := first_of_walk (hw.start_lt id) hfind
    obtain ⟨hcell, hid⟩ := findStop_used hstop
    exact ⟨(hw.cells g).mpr ⟨_, hcell⟩, hid⟩
  refine ⟨hsound g, ?_⟩
  rintro ⟨hlisted, rfl⟩
  obtain ⟨i, hcell⟩ := (hw.cells g).mp hlisted
  obtain ⟨n, hn, rfl, hbefore⟩ := hw.chain i g hcell
  have hhere : t.findStop (t.id g) (path t.ht.length (t.start (t.id g)) n) = some (some g) := by
    simp [findStop, hcell]
  cases hwalk : walk t.ht.length (t.findStop (t.id g)) t.ht.length (t.start (t.id g)) with
  | none =>
    have h := none_of_walk (hw.start_lt _) hwalk hn
    rw [hhere] at h
    cases h
  | some r =>
    obtain ⟨m, -, hstop, hfirst⟩ := first_of_walk (hw.start_lt _) hwalk
    cases r with
    | some g' =>
      have hfind : t.find (t.id g) = some g' := by rw [find, hwalk]; rfl
      obtain ⟨hlisted', hid⟩ := hsound g' hfind
      rw [hfind, hw.ids g' hlisted' g hlisted hid]
    | none =>
      -- the search would have ended at a free cell: not before the stream's own, not behind it
      exfalso
      have hfree : t.cell (path t.ht.length (t.start (t.id g)) m) = .free := by
        unfold findStop at hstop
        split at hstop
        · assumption
        · cases hstop
        · split_ifs at hstop
          cases hstop
      rcases Nat.lt_trichotomy m n with hlt | rfl | hlt
      · exact hbefore m hlt hfree
      · rw [hfree] at hcell
        cases hcell
      · have h := hfirst n hlt
        rw [hhere] at h
        cases h

theorem Wf.find_none (hw : t.Wf) : t.find id = none ↔ ∀ g ∈ t.streamList, t.id g ≠ id := by
  rw [Option.eq_none_iff_forall_ne_some]
  constructor
  · intro h g hg hid
    exact h g (hw.find_iff.mpr ⟨hg, hid⟩)
  · intro h g hfind
    obtain ⟨hg, hid⟩ := hw.find_iff.mp hfind
    exact h g hg hid

/-- A cell a new stream can be put in. -/
def insertStop (t : StreamTable) (i : Nat) : Option Nat :=
  match t.cell i with
  | .free | .tomb => some i
  | .used _ => none

def slot (t : StreamTable) (id : UInt32) : Option Nat :=
  walk t.ht.length t.insertStop t.ht.length (t.start id)

theorem insertStop_none (h : t.insertStop i = none) : ∃ g, t.cell i = .used g := by
  unfold insertStop at h
  split at h
  · cases h
  · cases h
  · next g hcell => exact ⟨g, hcell⟩

/-- A table that is not at its limit has a cell for a new stream. -/
theorem Wf.exists_slot (hw : t.Wf) (id : UInt32) : ∃ idx, t.slot id = some idx := by
  rw [← Option.ne_none_iff_exists']
  intro hnone
  -- otherwise every cell holds a stream, each of them another one
  have hused : ∀ i < t.ht.length, ∃ g, t.cell i = .used g := by
    intro i hi
    obtain ⟨n, hn, rfl⟩ := exists_path (t.start id) hi
    exact insertStop_none (none_of_walk (hw.start_lt id) hnone hn)
  choose! owner howner using hused
  have hinj : ((List.range t.ht.length).map owner).Nodup := by
    refine List.Nodup.map_on (fun i hi j hj hij => ?_) List.nodup_range
    have hi' := howner i (List.mem_range.mp hi)
    rw [hij] at hi'
    exact hw.once i j _ hi' (howner j (List.mem_range.mp hj))
  have hsub : (List.range t.ht.length).map owner ⊆ t.streamList := by
    intro g hg
    obtain ⟨i, hi, rfl⟩ := List.mem_map.mp hg
    exact (hw.cells _).mpr ⟨i, howner i (List.mem_range.mp hi)⟩
  have hle := hinj.length_le_of_subset hsub
  rw [List.length_map, List.length_range] at hle
  have hcount := hw.count
  have hlimit := hw.limit
  have hroom := hw.room
  omega

/-- A new stream in a cell of the table. -/
def insert (t : StreamTable) (idx : Nat) (id : UInt32) : StreamTable :=
  { t with
    ht := t.ht.set idx (.used t.nstreams)
    streamList := t.streamList ++ [t.nstreams]
    activeStreams := t.activeStreams + 1
    nstreams := t.nstreams + 1
    id := Function.update t.id t.nstreams id
    closed := Function.update t.closed t.nstreams false }

theorem Wf.fresh (hw : t.Wf) : t.nstreams ∉ t.streamList := fun h =>
  absurd (hw.known _ h) (Nat.lt_irrefl _)

theorem insert_start (t : StreamTable) (idx : Nat) (id id' : UInt32) :
    (t.insert idx id).start id' = t.start id' := by simp [start, insert]

theorem insert_cell (hidx : idx < t.ht.length) (i : Nat) :
    (t.insert idx id).cell i = if i = idx then .used t.nstreams else t.cell i :=
  cell_set t _ hidx i

theorem insert_id (hg : g ∈ t.streamList) (hw : t.Wf) : (t.insert idx id).id g = t.id g :=
  Function.update_of_ne (fun h : g = t.nstreams => hw.fresh (h ▸ hg)) _ _

theorem insert_id_new : (t.insert idx id).id t.nstreams = id := Function.update_self _ _ _

/-- A stream inserted where the search for a cell ended, under an id that is not in use. -/
theorem Wf.insert (hw : t.Wf) (habsent : ∀ g ∈ t.streamList, t.id g ≠ id)
    (hroom : t.activeStreams < t.maxStreams) (hslot : t.slot id = some idx) :
    (t.insert idx id).Wf := by
  obtain ⟨n, hn, hstop, hbefore⟩ := first_of_walk (hw.start_lt id) hslot
  obtain ⟨rfl, hcell⟩ : idx = path t.ht.length (t.start id) n ∧
      ∀ g, t.cell (path t.ht.length (t.start id) n) ≠ .used g := by
    unfold insertStop at hstop
    split at hstop
    · next h => exact ⟨(Option.some.inj hstop).symm, fun g hg => by rw [h] at hg; cases hg⟩
    · next h => exact ⟨(Option.some.inj hstop).symm, fun g hg => by rw [h] at hg; cases hg⟩
    · cases hstop
  have hidx : path t.ht.length (t.start id) n < t.ht.length := path_lt hw.pos _ _
  have hreach : Reaches t.ht.length (fun j => t.cell j = .free) (t.start id)
      (path t.ht.length (t.start id) n) := by
    refine ⟨n, hn, rfl, fun j hj hfree => ?_⟩
    obtain ⟨g, hg⟩ := insertStop_none (hbefore j hj)
    rw [hfree] at hg
    cases hg
  clear hstop hbefore
  generalize path t.ht.length (t.start id) n = idx at *
  have hlen : (t.insert idx id).ht.length = t.ht.length := List.length_set
  have hfree : ∀ j, (t.insert idx id).cell j = .free → t.cell j = .free := by
    intro j hj
    rw [insert_cell hidx] at hj
    split_ifs at hj
    exact hj
  have hlisted : ∀ {i g}, t.cell i = .used g → g ∈ t.streamList := fun h => (hw.cells _).mpr ⟨_, h⟩
  have hnew : ∀ {i}, t.cell i ≠ .used t.nstreams := fun h => hw.fresh (hlisted h)
  have hmem : ∀ {g}, g ∈ (t.insert idx id).streamList ↔ g ∈ t.streamList ∨ g = t.nstreams := by
    intro g
    exact List.mem_append.trans (or_congr_right List.mem_singleton)
  constructor
  case size => exact hlen ▸ hw.size
  case room => exact hlen ▸ hw.room
  case cells =>
    intro g
    rw [hmem, hw.cells g]
    constructor
    · rintro (⟨i, hi⟩ | rfl)
      · exact ⟨i, by rw [insert_cell hidx, if_neg fun h : i = idx => hcell g (h ▸ hi), hi]⟩
      · exact ⟨idx, by rw [insert_cell hidx, if_pos rfl]⟩
    · rintro ⟨i, hi⟩
      rw [insert_cell hidx] at hi
      split_ifs at hi
      · exact .inr (Slot.used.inj hi).symm
      · exact .inl ⟨i, hi⟩
  case chain =>
    intro i g hi
    rw [insert_cell hidx] at hi
    rw [hlen, insert_start]
    split_ifs at hi with hnow
    · obtain rfl := Slot.used.inj hi
      rw [insert_id_new, hnow]
      exact hreach.mono hfree
    · rw [insert_id (hlisted hi) hw]
      exact (hw.chain i g hi).mono hfree
  case once =>
    intro i j g hi hj
    rw [insert_cell hidx] at hi hj
    split_ifs at hi hj with hin hjn hjn
    · rw [hin, hjn]
    · exact absurd (Slot.used.inj hi ▸ hj) hnew
    · exact absurd (Slot.used.inj hj ▸ hi) hnew
    · exact hw.once i j g hi hj
  case ids =>
    intro g hg g' hg' hid
    rcases hmem.mp hg with hg | rfl <;> rcases hmem.mp hg' with hg' | rfl
    · rw [insert_id hg hw, insert_id hg' hw] at hid
      exact hw.ids g hg g' hg' hid
    · rw [insert_id hg hw, insert_id_new] at hid
      exact absurd hid (habsent g hg)
    · rw [insert_id hg' hw, insert_id_new] at hid
      exact absurd hid.symm (habsent g' hg')
    · rfl
  case nodup =>
    refine List.nodup_append.mpr ⟨hw.nodup, List.nodup_singleton _, fun g hg g' hg' => ?_⟩
    rintro rfl
    exact hw.fresh (List.mem_singleton.mp hg' ▸ hg)
  case count =>
    show t.activeStreams + 1 = (t.streamList ++ [t.nstreams]).length
    rw [List.length_append, hw.count, List.length_singleton]
  case limit => exact hroom
  case known =>
    intro g hg
    rcases hmem.mp hg with hg | rfl
    · exact Nat.lt_succ_of_lt (hw.known g hg)
    · exact Nat.lt_succ_self _
  case live =>
    intro g hg hopen
    refine hmem.mpr ?_
    by_cases hlast : g = t.nstreams
    · exact .inr hlast
    · have hsame : (t.insert idx id).closed g = t.closed g := Function.update_of_ne hlast _ _
      exact .inl (hw.live g (Nat.lt_of_le_of_ne (Nat.le_of_lt_succ hg) hlast) (hsame ▸ hopen))

/-- After an insert the new id finds the new stream, and the others what they found. -/
theorem Wf.find_insert (hw : t.Wf) (hw' : (t.insert idx id).Wf)
    (habsent : ∀ g ∈ t.streamList, t.id g ≠ id) (id' : UInt32) :
    (t.insert idx id).find id' = if id' = id then some t.nstreams else t.find id' := by
  have hmem : ∀ {g}, g ∈ (t.insert idx id).streamList ↔ g ∈ t.streamList ∨ g = t.nstreams := by
    intro g
    exact List.mem_append.trans (or_congr_right List.mem_singleton)
  split_ifs with h
  · subst h
    exact hw'.find_iff.mpr ⟨hmem.mpr (.inr rfl), insert_id_new⟩
  · refine Option.ext fun g => ?_
    rw [hw'.find_iff, hw.find_iff, hmem]
    constructor
    · rintro ⟨hg | rfl, hid⟩
      · exact ⟨hg, by rwa [insert_id hg hw] at hid⟩
      · rw [insert_id_new] at hid
        exact absurd hid.symm h
    · rintro ⟨hg, hid⟩
      exact ⟨.inl hg, by rwa [insert_id hg hw]⟩

def removeStop (t : StreamTable) (h : Handle) (i : Nat) : Option Nat :=
  if t.cell i = .used h then some i else none

def place (t : StreamTable) (h : Handle) : Option Nat :=
  walk t.ht.length (t.removeStop h) t.ht.length (t.start (t.id h))

/-- The stream in that cell leaves the list and the table. -/
def remove (t : StreamTable) (idx : Nat) (h : Handle) : StreamTable :=
  { t with
    ht := t.ht.set idx .tomb
    streamList := t.streamList.erase h
    activeStreams := t.activeStreams - 1 }

/-- The search for a stream in the table ends at its cell. -/
theorem Wf.place_listed (hw : t.Wf) (hlisted : h ∈ t.streamList) :
    ∃ idx, t.place h = some idx ∧ t.cell idx = .used h := by
  obtain ⟨i, hcell⟩ := (hw.cells h).mp hlisted
  obtain ⟨n, hn, rfl, -⟩ := hw.chain i h hcell
  cases hwalk : t.place h with
  | none =>
    have hstop := none_of_walk (hw.start_lt _) hwalk hn
    simp [removeStop, hcell] at hstop
  | some idx =>
    obtain ⟨m, -, hstop, -⟩ := first_of_walk (hw.start_lt _) hwalk
    unfold removeStop at hstop
    split_ifs at hstop with hused
    exact ⟨idx, rfl, Option.some.inj hstop ▸ hused⟩

theorem Wf.remove (hw : t.Wf) (hcell : t.cell idx = .used h) (hstale : t.closed h = true) :
    (t.remove idx h).Wf := by
  have hidx : idx < t.ht.length := lt_of_used hcell
  have hlen : (t.remove idx h).ht.length = t.ht.length := List.length_set
  have hcells : ∀ i, (t.remove idx h).cell i = if i = idx then .tomb else t.cell i :=
    cell_set t .tomb hidx
  have hfree : ∀ j, (t.remove idx h).cell j = .free → t.cell j = .free := by
    intro j hj
    rw [hcells] at hj
    split_ifs at hj
    exact hj
  have hold : ∀ {i g}, (t.remove idx h).cell i = .used g → t.cell i = .used g := by
    intro i g hi
    rw [hcells] at hi
    split_ifs at hi
    exact hi
  have hstart : ∀ id, (t.remove idx h).start id = t.start id := by simp [start, StreamTable.remove]
  have hlisted : h ∈ t.streamList := (hw.cells h).mpr ⟨idx, hcell⟩
  have hmem : ∀ {g}, g ∈ (t.remove idx h).streamList ↔ g ≠ h ∧ g ∈ t.streamList :=
    hw.nodup.mem_erase_iff
  constructor
  case size => exact hlen ▸ hw.size
  case room => exact hlen ▸ hw.room
  case cells =>
    intro g
    rw [hmem, hw.cells g]
    constructor
    · rintro ⟨hne, i, hi⟩
      refine ⟨i, ?_⟩
      rw [hcells, if_neg, hi]
      rintro rfl
      exact hne (Slot.used.inj (hi.symm.trans hcell))
    · rintro ⟨i, hi⟩
      refine ⟨?_, i, hold hi⟩
      rintro rfl
      obtain rfl := hw.once i idx g (hold hi) hcell
      rw [hcells, if_pos rfl] at hi
      cases hi
  case chain =>
    intro i g hi
    rw [hlen, hstart]
    exact (hw.chain i g (hold hi)).mono hfree
  case once => exact fun i j g hi hj => hw.once i j g (hold hi) (hold hj)
  case ids => exact fun g hg g' hg' => hw.ids g (hmem.mp hg).2 g' (hmem.mp hg').2
  case nodup => exact hw.nodup.erase h
  case count =>
    show t.activeStreams - 1 = (t.streamList.erase h).length
    rw [List.length_erase_of_mem hlisted, hw.count]
  case limit => exact (Nat.sub_le _ _).trans hw.limit
  case known => exact fun g hg => hw.known g (hmem.mp hg).2
  case live =>
    intro g hg hopen
    refine hmem.mpr ⟨?_, hw.live g hg hopen⟩
    rintro rfl
    rw [show t.closed g = false from hopen] at hstale
    cases hstale

/-- The table once a stream in it is closed, and not yet taken out. -/
def close (t : StreamTable) (h : Handle) : StreamTable :=
  { t with closed := Function.update t.closed h true }

theorem close_closed (t : StreamTable) (h g : Handle) :
    (t.close h).closed g = if g = h then true else t.closed g := Function.update_apply _ _ _ _

theorem Wf.close (hw : t.Wf) (h : Handle) : (t.close h).Wf where
  size := hw.size
  room := hw.room
  cells := hw.cells
  chain := hw.chain
  once := hw.once
  ids := hw.ids
  nodup := hw.nodup
  count := hw.count
  limit := hw.limit
  known := hw.known
  live g hg hopen := by
    have hsame : t.closed g = false := by
      rw [close_closed] at hopen
      split_ifs at hopen
      exact hopen
    exact hw.live g hg hsame

theorem stale_close (hlisted : h ∈ t.streamList) : (t.close h).Stale g ↔ g = h ∨ t.Stale g := by
  have hmem : g ∈ (t.close h).streamList ↔ g ∈ t.streamList := Iff.rfl
  rw [Stale, Stale, close_closed, hmem]
  by_cases hg : g = h
  · simp [hg, hlisted]
  · simp [hg]

theorem Wf.stale_remove (hw : t.Wf) : (t.remove idx h).Stale g ↔ g ≠ h ∧ t.Stale g := by
  have hmem : g ∈ (t.remove idx h).streamList ↔ g ≠ h ∧ g ∈ t.streamList := hw.nodup.mem_erase_iff
  rw [Stale, hmem, and_assoc]
  rfl

end StreamTable

section Source

variable {ac : Connection} {h : Handle} {id : UInt32}

private theorem htNext_eq (hsize : ∃ k, ac.ht.length = 2 ^ k) (idx : Nat) :
    htNext ac idx = (idx + 1) % ac.ht.length := by
  obtain ⟨k, hk⟩ := hsize
  rw [htNext, hk, Nat.and_two_pow_sub_one_eq_mod]

private theorem htIndex_eq (hsize : ∃ k, ac.ht.length = 2 ^ k) (id : UInt32) :
    htIndex ac id = id.toNat % ac.ht.length := by
  obtain ⟨k, hk⟩ := hsize
  rw [htIndex, hk, Nat.and_two_pow_sub_one_eq_mod]

private theorem htFindLoop_eq (hsize : ∃ k, ac.ht.length = 2 ^ k) (id : UInt32) (fuel idx : Nat) :
    htFindLoop ac id fuel idx = (walk ac.ht.length (ac.table.findStop id) fuel idx).join := by
  induction fuel generalizing idx with
  | zero => rfl
  | succ fuel ih =>
    have hcell : ac.table.cell idx = ac.ht.getD idx .free := rfl
    rw [htFindLoop, walk, StreamTable.findStop, htNext_eq hsize, ih, hcell]
    cases ac.ht.getD idx .free with
    | free => rfl
    | tomb => rfl
    | used g =>
      show (if (ac.streams g).id = id then _ else _) = (Option.or (if (ac.streams g).id = id then _
        else _) _).join
      split_ifs
      · rfl
      · rfl

private theorem htFind_eq (hw : ac.table.Wf) (id : UInt32) : htFind ac id = ac.table.find id := by
  rw [htFind, htFindLoop_eq hw.size, htIndex_eq hw.size]
  rfl

private theorem htInsertLoop_eq (hsize : ∃ k, ac.ht.length = 2 ^ k) (fuel idx : Nat) :
    htInsertLoop ac fuel idx = walk ac.ht.length ac.table.insertStop fuel idx := by
  induction fuel generalizing idx with
  | zero => rfl
  | succ fuel ih =>
    have hcell : ac.table.cell idx = ac.ht.getD idx .free := rfl
    rw [htInsertLoop, walk, StreamTable.insertStop, htNext_eq hsize, ih, hcell]
    cases ac.ht.getD idx .free <;> rfl

private theorem htRemoveLoop_eq (hsize : ∃ k, ac.ht.length = 2 ^ k) (h : Handle) (fuel idx : Nat) :
    htRemoveLoop ac h fuel idx = walk ac.ht.length (ac.table.removeStop h) fuel idx := by
  induction fuel generalizing idx with
  | zero => rfl
  | succ fuel ih =>
    have hcell : ac.table.cell idx = ac.ht.getD idx .free := rfl
    rw [htRemoveLoop, walk, StreamTable.removeStop, htNext_eq hsize, ih, hcell]
    split_ifs
    · rfl
    · rfl

theorem table_upd {f : Stream → Stream} (hid : ∀ st, (f st).id = st.id)
    (hstate : (f (ac.streams h)).state = .closed ↔ (ac.streams h).state = .closed) :
    (ac.upd h f).table = ac.table := by
  have hids : (fun g => ((ac.upd h f).streams g).id) = fun g => (ac.streams g).id := by
    funext g
    rw [Connection.upd_streams]
    split_ifs with hg
    · rw [hg, hid]
    · rfl
  have hclosed : (fun g => decide (((ac.upd h f).streams g).state = .closed)) =
      fun g => decide ((ac.streams g).state = .closed) := by
    funext g
    rw [Connection.upd_streams]
    split_ifs with hg
    · rw [hg, decide_eq_decide, hstate]
    · rfl
  calc (ac.upd h f).table
      = { ac.table with
          id := fun g => ((ac.upd h f).streams g).id
          closed := fun g => decide (((ac.upd h f).streams g).state = .closed) } := rfl
    _ = ac.table := by rw [hids, hclosed]; rfl

/-- A change of a stream that keeps its id and its state. -/
theorem table_upd_same {f : Stream → Stream}
    (hf : ∀ st, (f st).id = st.id ∧ (f st).state = st.state) :
    (ac.upd h f).table = ac.table := table_upd (fun st => (hf st).1) (by rw [(hf _).2])

variable (h) (ac)

@[simp] theorem log_table (o : Obs) : (ac.log o).table = ac.table := rfl

@[simp] theorem markClosedByProtocol_table : (markClosedByProtocol h ac).table = ac.table := by
  unfold markClosedByProtocol
  split_ifs
  · rfl
  · exact table_upd_same fun _ => ⟨rfl, rfl⟩

@[simp] theorem removeReady_table : (removeReady h ac).table = ac.table := by
  unfold removeReady
  split_ifs
  · exact table_upd_same fun _ => ⟨rfl, rfl⟩
  · rfl

@[simp] theorem muxStreamClosing_table : (muxStreamClosing h ac).table = ac.table := by
  have hread : (unlinkReadReady h ac).table = ac.table := by
    unfold unlinkReadReady
    split_ifs
    · exact table_upd_same fun _ => ⟨rfl, rfl⟩
    · rfl
  have hwrite : ∀ ac : Connection, (unlinkWriteReady h ac).table = ac.table := fun ac => by
    unfold unlinkWriteReady
    split_ifs
    · exact table_upd_same fun _ => ⟨rfl, rfl⟩
    · rfl
  have hblocked : ∀ ac : Connection, (unblockRead h ac).table = ac.table := fun ac => by
    unfold unblockRead
    split_ifs
    · exact table_upd_same fun _ => ⟨rfl, rfl⟩
    · rfl
  have hconnect : ∀ ac : Connection, (cancelConnect h ac).table = ac.table := fun ac => by
    unfold cancelConnect
    split_ifs
    · exact table_upd_same fun _ => ⟨rfl, rfl⟩
    · rfl
  rw [muxStreamClosing, hconnect, hblocked, hwrite, hread]

@[simp] theorem unblockRead_table : (unblockRead h ac).table = ac.table := by
  unfold unblockRead
  split_ifs
  · exact table_upd_same fun _ => ⟨rfl, rfl⟩
  · rfl

@[simp] theorem cancelConnect_table : (cancelConnect h ac).table = ac.table := by
  unfold cancelConnect
  split_ifs
  · exact table_upd_same fun _ => ⟨rfl, rfl⟩
  · rfl

@[simp] theorem resolverCancel_table : (resolverCancel h ac).table = ac.table :=
  table_upd_same fun _ => ⟨rfl, rfl⟩

@[simp] theorem dropUpstream_table : (dropUpstream h ac).table = ac.table :=
  table_upd_same fun _ => ⟨rfl, rfl⟩

@[simp] theorem clearUotPending_table : (clearUotPending h ac).table = ac.table :=
  table_upd_same fun _ => ⟨rfl, rfl⟩

@[simp] theorem uotCloseIfCounted_table : (uotCloseIfCounted h ac).table = ac.table := by
  have hslot : (releaseUotSlot h ac).table = ac.table := by
    unfold releaseUotSlot
    split_ifs
    · exact table_upd_same fun _ => ⟨rfl, rfl⟩
    · rfl
  have hudp : ∀ ac : Connection, (closeUdp h ac).table = ac.table := fun _ =>
    table_upd_same fun _ => ⟨rfl, rfl⟩
  unfold uotCloseIfCounted
  split_ifs
  · rw [uotClose, hudp, clearUotPending_table, resolverCancel_table, hslot]
  · rfl

@[simp] theorem dropOut_table : (dropOut h ac).table = ac.table := by
  have hnote : ∀ b, (noteClamped b ac).table = ac.table := fun b => by cases b <;> rfl
  rw [← hnote (dropClamps h ac)]
  exact table_upd_same fun _ => ⟨rfl, rfl⟩

/-- The backlog a close throws away, before input is resumed. -/
theorem discard_table : (unblockInput h (dropPending h ac)).table = ac.table := by
  have hdrop : (dropPending h ac).table = ac.table := by
    rw [dropPending, log_table]
    exact table_upd_same fun _ => ⟨rfl, rfl⟩
  rw [← hdrop]
  unfold unblockInput
  split_ifs
  · exact table_upd_same fun _ => ⟨rfl, rfl⟩
  · rfl

private theorem enterClosing_table (hopen : (ac.streams h).state ≠ .closed) :
    (enterClosing h ac).table = ac.table := by
  rw [enterClosing, log_table]
  exact table_upd (fun _ => rfl) (by simp [logState, hopen])

end Source

/-- One operation on the table or several, in any order, with any change of the session in between
that leaves the table alone. The close of a stream resumes client input, which may operate on the
table in turn. -/
inductive TableRun : Connection → Connection → Prop
  | refl (ac : Connection) : TableRun ac ac
  | trans {a b c : Connection} (hab : TableRun a b) (hbc : TableRun b c) : TableRun a c
  | other {a b : Connection} (h : b.table = a.table) : TableRun a b
  | syn (id : UInt32) (ac : Connection) : TableRun ac (streamCreateIfAbsent id ac).2
  | mark (h : Handle) (ac : Connection) : TableRun ac (markClosedByProtocol h ac)
  | close (k : Callbacks) (hk : ∀ ac, TableRun ac (k.resume ac).2) (h : Handle) (ac : Connection)
      (hknown : h < ac.nstreams) : TableRun ac (streamClose k h ac)

/-- What operations do to the table: it stays well formed, and the streams that are on their way out
of it stay the same. -/
structure StreamTable.Step (t t' : StreamTable) : Prop where
  wf : t'.Wf
  stale : ∀ g, t'.Stale g ↔ t.Stale g
  nstreams : t.nstreams ≤ t'.nstreams
  maxStreams : t'.maxStreams = t.maxStreams

namespace StreamTable.Step

variable {a b c : StreamTable}

theorem refl (hw : a.Wf) : a.Step a := ⟨hw, fun _ => Iff.rfl, le_refl _, rfl⟩

theorem trans (hab : a.Step b) (hbc : b.Step c) : a.Step c :=
  ⟨hbc.wf, fun g => (hbc.stale g).trans (hab.stale g), hab.nstreams.trans hbc.nstreams,
    hbc.maxStreams.trans hab.maxStreams⟩

end StreamTable.Step

section Steps

variable {ac : Connection} {h : Handle} {id : UInt32}

private theorem newStream_table (idx : Nat) :
    (tableInsert ac.nstreams idx (newStream id ac.allocNext)).table = ac.table.insert idx id := by
  have hstream : ∀ g, (newStream id ac.allocNext).streams g =
      if g = ac.nstreams then { id := id } else ac.streams g := by
    intro g
    rw [newStream, Connection.log_streams, Connection.upd_streams]
    rfl
  have hids : (fun g => ((newStream id ac.allocNext).streams g).id) =
      Function.update ac.table.id ac.nstreams id := by
    funext g
    rw [hstream, Function.update_apply]
    split_ifs
    · rfl
    · rfl
  have hclosed : (fun g => decide (((newStream id ac.allocNext).streams g).state = .closed)) =
      Function.update ac.table.closed ac.nstreams false := by
    funext g
    rw [hstream, Function.update_apply]
    split_ifs
    · rfl
    · rfl
  rw [StreamTable.insert, show ac.table.nstreams = ac.nstreams from rfl, ← hids, ← hclosed]
  rfl

/-- A new stream finds a cell. -/
theorem streamAlloc_spec (hw : ac.table.Wf) (habsent : htFind ac id = none)
    (hroom : ac.activeStreams < ac.conf.maxStreams) (halloc : ac.allocOk) :
    ∃ idx, (streamAlloc id ac).1 = some ac.nstreams ∧
      (streamAlloc id ac).2.table = ac.table.insert idx id ∧ (ac.table.insert idx id).Wf := by
  rw [htFind_eq hw, hw.find_none] at habsent
  obtain ⟨idx, hslot⟩ := hw.exists_slot id
  have hfound : htInsertLoop (newStream id ac.allocNext) (newStream id ac.allocNext).ht.length
      (htIndex (newStream id ac.allocNext) id) = some idx := by
    have hsize : ∃ k, (newStream id ac.allocNext).ht.length = 2 ^ k := hw.size
    rw [htInsertLoop_eq hsize, htIndex_eq hsize]
    exact hslot
  have hresult : streamAlloc id ac =
      (some ac.nstreams, tableInsert ac.nstreams idx (newStream id ac.allocNext)) := by
    rw [streamAlloc, if_neg (by simp [halloc])]
    dsimp only
    rw [hfound]
  rw [hresult]
  exact ⟨idx, rfl, newStream_table idx, hw.insert habsent hroom hslot⟩

/-- A SYN keeps the table well formed. -/
theorem syn_step (hw : ac.table.Wf) (id : UInt32) :
    ac.table.Step (streamCreateIfAbsent id ac).2.table := by
  unfold streamCreateIfAbsent
  cases habsent : htFind ac id with
  | some h => exact .refl hw
  | none =>
    dsimp only
    split_ifs with hlimit
    · exact .refl hw
    · cases halloc : ac.allocOk with
      | false =>
        rw [streamAlloc, if_pos (by simp [halloc])]
        exact .refl hw
      | true =>
        obtain ⟨idx, -, htable, hw'⟩ := streamAlloc_spec hw habsent (by omega) halloc
        rw [htable]
        refine ⟨hw', fun g => ?_, Nat.le_succ _, rfl⟩
        have hmem : g ∈ (ac.table.insert idx id).streamList ↔
            g ∈ ac.table.streamList ∨ g = ac.table.nstreams :=
          List.mem_append.trans (or_congr_right List.mem_singleton)
        rw [StreamTable.Stale, StreamTable.Stale, hmem]
        by_cases hg : g = ac.table.nstreams
        · subst hg
          simp [StreamTable.insert, hw.fresh]
        · have hclosed : (ac.table.insert idx id).closed g = ac.table.closed g :=
            Function.update_of_ne hg _ _
          simp [hg, hclosed]

/-- The table without a stream that was in it. -/
theorem htRemove_table (hw : ac.table.Wf) (hlisted : h ∈ ac.streamList) :
    ∃ idx, ac.table.cell idx = .used h ∧
      (htRemove h (unlinkStream h ac)).table = ac.table.remove idx h := by
  obtain ⟨idx, hplace, hcell⟩ := hw.place_listed hlisted
  have hsize : ∃ k, (unlinkStream h ac).ht.length = 2 ^ k := hw.size
  have hfound : htRemoveLoop (unlinkStream h ac) h (unlinkStream h ac).ht.length
      (htIndex (unlinkStream h ac) ((unlinkStream h ac).streams h).id) = some idx := by
    rw [htRemoveLoop_eq hsize, htIndex_eq hsize]
    exact hplace
  refine ⟨idx, hcell, ?_⟩
  rw [htRemove, hfound]
  rfl

/-- A stream that is on its way out of the table leaves it. -/
theorem forgetStream_step (wasClosing : Bool) (hw : ac.table.Wf) (hstale : ac.table.Stale h) :
    ∃ idx, (forgetStream wasClosing h ac).table = ac.table.remove idx h ∧
      (ac.table.remove idx h).Wf := by
  have hunlink : (if wasClosing then unlinkClosing h ac else ac).table = ac.table := by
    cases wasClosing <;> rfl
  unfold forgetStream
  generalize (if wasClosing then unlinkClosing h ac else ac) = b at hunlink ⊢
  rw [← hunlink] at hw hstale ⊢
  have hw : b.table.Wf := hw
  obtain ⟨idx, hcell, htable⟩ := htRemove_table hw hstale.1
  exact ⟨idx, htable, hw.remove hcell hstale.2⟩

/-- What input does to the table while a stream is closed. -/
def Callbacks.Tables (k : Callbacks) : Prop :=
  ∀ ac : Connection, ac.table.Wf → ac.table.Step (k.resume ac).2.table

variable {k : Callbacks}

private theorem discardPending_step (hk : k.Tables) (h : Handle) (hw : ac.table.Wf) :
    ac.table.Step (discardPending k h ac).table := by
  have hdiscard := discard_table ac h
  have hstep := hk (unblockInput h (dropPending h ac)) (hdiscard ▸ hw)
  rwa [hdiscard] at hstep

private theorem delayClose_step (hk : k.Tables) (hopen : (ac.streams h).state ≠ .closed)
    (hw : ac.table.Wf) : ac.table.Step (delayClose k h ac).table := by
  have hquiet : (uotCloseIfCounted h
    (dropUpstream h (resolverCancel h (enterClosing h ac)))).table =
      ac.table := by simp [enterClosing_table ac h hopen]
  unfold delayClose
  rw [cancelConnect_table, unblockRead_table]
  have hstep := discardPending_step hk h (hquiet ▸ hw)
  rwa [hquiet] at hstep

private theorem enterClosed_table (ac : Connection) (h : Handle) :
    (enterClosed h ac).table = ac.table.close h := by
  have hclosed : (fun g => decide (((enterClosed h ac).streams g).state = .closed)) =
      Function.update ac.table.closed h true := by
    funext g
    rw [enterClosed, Connection.log_streams, Connection.upd_streams, Function.update_apply]
    split_ifs
    · rfl
    · rfl
  have hids : (fun g => ((enterClosed h ac).streams g).id) = ac.table.id := by
    funext g
    rw [enterClosed, Connection.log_streams, Connection.upd_streams]
    split_ifs with hg
    · exact hg ▸ rfl
    · rfl
  rw [StreamTable.close, ← hclosed, ← hids]
  rfl

/-- The close takes the stream out of the table, whatever input does meanwhile. -/
theorem fullClose_step (hk : k.Tables) (hopen : (ac.streams h).state ≠ .closed)
    (hknown : h < ac.nstreams) (hw : ac.table.Wf) : ac.table.Step (fullClose k h ac).table := by
  have hlisted : h ∈ ac.table.streamList := hw.live h hknown (decide_eq_false hopen)
  have hquiet : (clearUotPending h (uotCloseIfCounted h (dropUpstream h (dropOut h
      (resolverCancel h (removeReady h (enterClosed h ac))))))).table = ac.table.close h := by
    simp [enterClosed_table]
  unfold fullClose
  generalize clearUotPending h (uotCloseIfCounted h (dropUpstream h (dropOut h
    (resolverCancel h (removeReady h (enterClosed h ac)))))) = b at hquiet ⊢
  have hclosed : b.table.Wf := hquiet ▸ hw.close h
  have hdiscard := discardPending_step hk h hclosed
  rw [hquiet, ← cancelConnect_table (discardPending k h b) h] at hdiscard
  generalize cancelConnect h (discardPending k h b) = c at hdiscard ⊢
  have hstale : c.table.Stale h :=
    (hdiscard.stale h).mpr ((StreamTable.stale_close hlisted).mpr (.inl rfl))
  obtain ⟨idx, htable, hw'⟩ := forgetStream_step (ac.streams h).closing hdiscard.wf hstale
  rw [htable]
  refine ⟨hw', fun g => ?_, hdiscard.nstreams, hdiscard.maxStreams⟩
  rw [hdiscard.wf.stale_remove, hdiscard.stale, StreamTable.stale_close hlisted]
  constructor
  · rintro ⟨hne, rfl | hg⟩
    · exact absurd rfl hne
    · exact hg
  · intro hg
    refine ⟨?_, .inr hg⟩
    rintro rfl
    exact hopen (of_decide_eq_true hg.2)

private theorem streamClose_step (hk : k.Tables) (hknown : h < ac.nstreams) (hw : ac.table.Wf) :
    ac.table.Step (streamClose k h ac).table := by
  have hquiet : (muxStreamClosing h (markClosedByProtocol h ac)).table = ac.table := by simp
  unfold streamClose
  dsimp only
  split_ifs with hclosed hdelay
  · exact .refl hw
  all_goals
    generalize muxStreamClosing h (markClosedByProtocol h ac) = b at hquiet ⊢
    have hopen : (b.streams h).state ≠ .closed := by
      have hsame := congrFun (congrArg StreamTable.closed hquiet) h
      exact fun hb => hclosed (of_decide_eq_true (hsame.symm.trans (decide_eq_true hb)))
    rw [← hquiet] at hw ⊢
  · exact delayClose_step hk hopen hw
  · have hn : b.nstreams = ac.nstreams := congrArg StreamTable.nstreams hquiet
    exact fullClose_step hk hopen (hn ▸ hknown) hw

/-- Operations in any order keep the table well formed. -/
theorem TableRun.step {a b : Connection} (hr : TableRun a b) (hw : a.table.Wf) :
    a.table.Step b.table := by
  induction hr with
  | refl ac => exact .refl hw
  | trans _ _ hab hbc => exact (hab hw).trans (hbc (hab hw).wf)
  | other h =>
    rw [h]
    exact .refl hw
  | syn id ac => exact syn_step hw id
  | mark h ac =>
    rw [markClosedByProtocol_table]
    exact .refl hw
  | close k _ h ac hknown hk => exact streamClose_step (fun ac hw => hk ac hw) hknown hw

end Steps

/-- The table has a power of two of cells, more than twice the streams it is for. -/
theorem htSize_spec {conf : Conf} (hmin : 1 ≤ conf.maxStreams) (hmax : conf.maxStreams ≤ 65536) :
    (∃ k, htSize conf = 2 ^ k) ∧ conf.maxStreams < htSize conf := by
  have hx : (UInt32.ofNat (conf.maxStreams * 2) - 1).toNat = conf.maxStreams * 2 - 1 := by
    rw [UInt32.toNat_sub_of_le, UInt32.toNat_ofNat', Nat.mod_eq_of_lt (by omega)]
    · rfl
    · rw [UInt32.le_iff_toNat_le, UInt32.toNat_ofNat', Nat.mod_eq_of_lt (by omega)]
      show 1 ≤ _
      omega
  unfold htSize
  dsimp only
  generalize UInt32.ofNat (conf.maxStreams * 2) - 1 = x at hx ⊢
  have hsmear : ∀ {w : Nat} {y s : UInt32}, Smears w x.toNat y.toNat → s.toNat % 32 = w →
      Smears (w + w) x.toNat (y ||| y >>> s).toNat := by
    intro w y s hy hs
    rw [UInt32.toNat_or, UInt32.toNat_shiftRight, hs]
    exact hy.double
  have h32 := hsmear (s := 16) (hsmear (s := 8) (hsmear (s := 4) (hsmear (s := 2)
    (hsmear (s := 1) (smears_self x.toNat) rfl) rfl) rfl) rfl) rfl
  generalize (_ ||| _ : UInt32) = y at h32 ⊢
  have hsucc := h32.succ_eq (by omega) x.toNat_lt
  have hlog : x.toNat.log2 + 1 ≤ 17 :=
    (Nat.log2_lt (by omega)).mpr (show x.toNat < 2 ^ 17 by rw [hx]; omega)
  have hle : 2 ^ (x.toNat.log2 + 1) ≤ 2 ^ 17 := Nat.pow_le_pow_right (by omega) hlog
  have hlt : x.toNat < 2 ^ (x.toNat.log2 + 1) := Nat.lt_log2_self
  have hsize : (y + 1).toNat = 2 ^ (x.toNat.log2 + 1) := by
    rw [UInt32.toNat_add, show (1 : UInt32).toNat = 1 from rfl, Nat.mod_eq_of_lt (by omega), hsucc]
  split_ifs with hsmall
  · have h64 : (y + 1).toNat < 64 := hsmall
    exact ⟨⟨6, rfl⟩, by omega⟩
  · exact ⟨⟨_, hsize⟩, by omega⟩

theorem init_wf {conf : Conf} (hmin : 1 ≤ conf.maxStreams) (hmax : conf.maxStreams ≤ 65536) :
    (Connection.init conf).table.Wf := by
  obtain ⟨hsize, hroom⟩ := htSize_spec hmin hmax
  have hlen : (Connection.init conf).table.ht.length = htSize conf := List.length_replicate
  have hcell : ∀ i, (Connection.init conf).table.cell i = .free := by
    intro i
    show (List.replicate (htSize conf) Slot.free).getD i .free = .free
    rw [List.getD_eq_getElem?_getD, List.getElem?_replicate]
    split_ifs <;> rfl
  have hnone : ∀ {i g}, (Connection.init conf).table.cell i ≠ .used g := fun h => by
    rw [hcell] at h
    cases h
  exact {
    size := hlen ▸ hsize
    room := hlen ▸ hroom
    cells := fun g => ⟨fun h => absurd h List.not_mem_nil, fun ⟨_, h⟩ => absurd h hnone⟩
    chain := fun _ _ h => absurd h hnone
    once := fun _ _ _ h => absurd h hnone
    ids := fun _ h => absurd h List.not_mem_nil
    nodup := List.nodup_nil
    count := rfl
    limit := Nat.zero_le _
    known := fun _ h => absurd h List.not_mem_nil
    live := fun _ h => absurd h (Nat.not_lt_zero _) }

/-- The stream table is a finite map from ids to streams that are not closed. -/
structure Connection.MapsStreams (ac : Connection) : Prop where
  find : ∀ id h, htFind ac id = some h ↔
    h < ac.nstreams ∧ (ac.streams h).state ≠ .closed ∧ (ac.streams h).id = id
  visible : ∀ id h, streamFind id ac = some h ↔
    htFind ac id = some h ∧ (ac.streams h).closedByProtocol = false
  listed : ∀ h, h ∈ ac.streamList ↔ h < ac.nstreams ∧ (ac.streams h).state ≠ .closed
  distinct : ∀ h ∈ ac.streamList, ∀ h' ∈ ac.streamList,
    (ac.streams h).id = (ac.streams h').id → h = h'
  nodup : ac.streamList.Nodup
  count : ac.activeStreams = ac.streamList.length
  limit : ac.activeStreams ≤ ac.conf.maxStreams
  duplicate : ∀ id h, htFind ac id = some h → streamCreateIfAbsent id ac = (some h, ac)
  create : ∀ id, htFind ac id = none → ac.activeStreams < ac.conf.maxStreams → ac.allocOk →
    (streamCreateIfAbsent id ac).1 = some ac.nstreams ∧ ∀ id',
      htFind (streamCreateIfAbsent id ac).2 id' =
        if id' = id then some ac.nstreams else htFind ac id'

private theorem mapsStreams {ac : Connection} (hw : ac.table.Wf) (hstale : ∀ g, ¬ac.table.Stale g) :
    ac.MapsStreams := by
  have hlisted : ∀ h, h ∈ ac.streamList ↔ h < ac.nstreams ∧ (ac.streams h).state ≠ .closed := by
    intro h
    constructor
    · intro hm
      exact ⟨hw.known h hm, fun hc => hstale h ⟨hm, decide_eq_true hc⟩⟩
    · rintro ⟨hknown, hopen⟩
      exact hw.live h hknown (decide_eq_false hopen)
  have hfind : ∀ id h, htFind ac id = some h ↔ h ∈ ac.streamList ∧ (ac.streams h).id = id := by
    intro id h
    rw [htFind_eq hw]
    exact hw.find_iff
  refine ⟨fun id h => ?_, fun id h => ?_, hlisted, hw.ids, hw.nodup, hw.count, hw.limit,
    fun id h hf => ?_, fun id hf hroom halloc => ?_⟩
  · rw [hfind, hlisted, and_assoc]
  · unfold streamFind
    cases htFind ac id with
    | none => simp
    | some g =>
      dsimp only
      split_ifs with hc
      · refine ⟨nofun, ?_⟩
        rintro ⟨hg, hv⟩
        cases hg
        rw [hc] at hv
        cases hv
      · refine ⟨fun hg => ?_, And.left⟩
        cases hg
        exact ⟨rfl, by simpa using hc⟩
  · rw [streamCreateIfAbsent, hf]
  · obtain ⟨idx, hsome, htable, hw'⟩ := streamAlloc_spec hw hf hroom halloc
    have hcreate : streamCreateIfAbsent id ac = streamAlloc id ac := by
      rw [streamCreateIfAbsent, hf]
      exact if_neg (Nat.not_le.mpr hroom)
    rw [hcreate]
    refine ⟨hsome, fun id' => ?_⟩
    have habsent : ∀ g ∈ ac.table.streamList, ac.table.id g ≠ id := by
      rwa [htFind_eq hw, hw.find_none] at hf
    rw [htFind_eq (htable ▸ hw'), htFind_eq hw, htable]
    exact hw.find_insert hw' habsent id'

/-- However SYNs, protocol closes and full closes follow on each other, the stream table is a finite
map from ids to the streams that are not closed. -/
theorem run_table (conf : Conf) (hmin : 1 ≤ conf.maxStreams) (hmax : conf.maxStreams ≤ 65536)
    {ac : Connection} (hr : TableRun (Connection.init conf) ac) :
    ac.MapsStreams ∧ ac.conf.maxStreams = conf.maxStreams := by
  have hstep := hr.step (init_wf hmin hmax)
  refine ⟨mapsStreams hstep.wf fun g hg => ?_, hstep.maxStreams⟩
  exact absurd ((hstep.stale g).mp hg).1 List.not_mem_nil

/-- The resume of input while a client frame is handled leaves the table alone. -/
theorem innerResume_run (conf : Conf) (ac : Connection) :
    TableRun ac ((innerCallbacks conf).resume ac).2 := by
  have henable : ∀ ac : Connection, (enableClientRead ac).2.table = ac.table := fun ac => by
    unfold enableClientRead
    dsimp only
    split_ifs <;> rfl
  refine .other ?_
  show (inputResume (fun _ ac => (.error, ac)) ac).2.table = ac.table
  unfold inputResume
  dsimp only
  rw [if_pos (show Rc.error ≠ Rc.ok by decide)]
  split_ifs
  · rfl
  · rfl
  · rfl
  · rfl
  · exact henable _

/-- Two streams whose ids share a cell, a SYN that comes twice, and the close of the first. -/
def sampleTable : Connection :=
  let opened := (streamCreateIfAbsent 65 (streamCreateIfAbsent 1
    (streamCreateIfAbsent 1 (Connection.init sampleConf)).2).2).2
  streamClose (innerCallbacks sampleConf) 0 (markClosedByProtocol 0 opened)

theorem run_table_sample :
    sampleTable.MapsStreams ∧ sampleTable.conf.maxStreams = sampleConf.maxStreams :=
  run_table sampleConf (by decide) (by decide)
    ((TableRun.syn 1 _).trans <| (TableRun.syn 1 _).trans <| (TableRun.syn 65 _).trans <|
      (TableRun.mark 0 _).trans <|
        .close (innerCallbacks sampleConf) (innerResume_run sampleConf) 0 _ (by decide))

/-- The stream that is left is found behind the cell of the one that is gone. -/
example : htFind sampleTable 65 = some 1 ∧ htFind sampleTable 1 = none := by decide

end NgxAnytls
