import NgxAnytls.SessionCore

/-! The session core follows the documented frame protocol, but for a SETTINGS frame without a
payload. -/

namespace NgxAnytls

/-- The padding checksum a session core points to. -/
abbrev PaddingMd5 := { bs : Bytes // bs.length = 32 }

/-- `ngx_anytls_session_core_init`. -/
def SessionCore.init (md5 : PaddingMd5) (padding : Bytes) : SessionCore :=
  { paddingMd5 := md5.1, paddingData := padding }

/-- A frame that the core is fed, and whether the copies of its texts find memory; only a payload
has texts to copy. -/
structure CoreInput where
  frame : Frame
  alloc : Bool := true
  copies : alloc = false → frame.data ≠ []

def CoreInput.Is (i : CoreInput) (cmd : Cmd) : Prop := Cmd.ofByte? i.frame.cmd = some cmd

/-- The core after a sequence of frames. -/
def SessionCore.feed (core : SessionCore) (is : List CoreInput) : SessionCore :=
  is.foldl (fun core i => (handleFrame core i.frame i.alloc).core) core

def CoreInput.result (i : CoreInput) (core : SessionCore) : CoreResult :=
  handleFrame core i.frame i.alloc

/-- A SETTINGS frame as the documentation counts it: with a payload, which is parsed. -/
def CoreInput.Settles (i : CoreInput) : Prop :=
  i.Is .settings ∧ i.frame.data ≠ [] ∧ i.alloc = true

/-- What a SETTINGS frame with a payload asks for. -/
def settingsActions (md5 : PaddingMd5) (padding data : Bytes) : List Action :=
  (if (parseSettings data).paddingMd5 = md5.1 then []
    else [.queueControl .updatePadding 0 padding]) ++
    if 2 ≤ (parseSettings data).version then [.queueControl .serverSettings 0 serverSettingsText]
    else []

/-- The documented rules for the answer to one frame, when `before` came first. -/
structure FrameRules (md5 : PaddingMd5) (padding : Bytes) (before : List CoreInput)
    (i : CoreInput) :
    Prop where
  opened : ∀ id, .openStream id ∈ (i.result ((SessionCore.init md5 padding).feed before)).actions →
    ∃ s ∈ before, s.Settles
  empty : i.Is .settings → i.frame.data = [] →
    (i.result ((SessionCore.init md5 padding).feed before)).core =
      (SessionCore.init md5 padding).feed before ∧
    (i.result ((SessionCore.init md5 padding).feed before)).actions = []
  settings : i.Settles → i.result ((SessionCore.init md5 padding).feed before) =
    { ok := true
      core :=
        { settingsReceived := true, peerVersion := (parseSettings i.frame.data).version
          state := .ready
          paddingMd5 := md5.1, paddingData := padding }
      actions := settingsActions md5 padding i.frame.data }
  early : i.Is .syn → (¬ ∃ s ∈ before, s.Settles) →
    i.result ((SessionCore.init md5 padding).feed before) =
      ⟨false, (SessionCore.init md5 padding).feed before, [.protocolError noSettingsText]⟩
  room : (i.result ((SessionCore.init md5 padding).feed before)).actions.length ≤ sessionMaxActions

/-- The rules hold for every frame of a sequence. -/
def CoreRules (md5 : PaddingMd5) (padding : Bytes) (is : List CoreInput) : Prop :=
  ∀ before i after, is = before ++ i :: after → FrameRules md5 padding before i

section Frame

variable {core : SessionCore} {i : CoreInput} {md5 : PaddingMd5} {padding : Bytes}

theorem CoreResult.add_of_room {r : CoreResult} (h : r.actions.length < sessionMaxActions)
    (a : Action) : r.add a = { r with actions := r.actions ++ [a] } := by
  unfold CoreResult.add addAction
  rw [if_neg (not_le.mpr h)]

theorem CoreResult.add_first (core : SessionCore) (a : Action) :
    (⟨true, core, []⟩ : CoreResult).add a = ⟨true, core, [a]⟩ := rfl

theorem CoreResult.add_core (r : CoreResult) (a : Action) : (r.add a).core = r.core := by
  unfold CoreResult.add
  split <;> rfl

/-- SETTINGS with a checksum of the right length in the core. -/
theorem handleSettings_eq (hmd5 : core.paddingMd5 = md5.1) (hpad : core.paddingData = padding)
    (data : Bytes) : handleSettings core data =
      { ok := true
        core := { core with
          settingsReceived := true, peerVersion := (parseSettings data).version, state := .ready }
        actions := settingsActions md5 padding data } := by
  have htake : core.paddingMd5.take 32 = md5.1 := by
    rw [hmd5]
    exact List.take_of_length_le md5.2.le
  have hcheck : ((parseSettings data).paddingMd5.length ≠ 32 ∨
      (parseSettings data).paddingMd5 ≠ md5.1) ↔ (parseSettings data).paddingMd5 ≠ md5.1 := by
    constructor
    · rintro (hlen | hne)
      · intro heq
        exact hlen (heq ▸ md5.2)
      · exact hne
    · exact .inr
  unfold handleSettings settingsActions
  simp only [htake, hcheck, hpad, ne_eq, ite_not]
  by_cases hsame : (parseSettings data).paddingMd5 = md5.1
  · rw [if_pos hsame, if_pos hsame]
    by_cases hv : 2 ≤ (parseSettings data).version
    · simp only [if_pos hv]
      rw [CoreResult.add_first]
      rfl
    · simp only [if_neg hv]
      rfl
  · rw [if_neg hsame, if_neg hsame, CoreResult.add_first]
    by_cases hv : 2 ≤ (parseSettings data).version
    · simp only [if_pos hv]
      rw [CoreResult.add_of_room (by simp [sessionMaxActions])]
      rfl
    · simp only [if_neg hv]
      rfl

/-- A frame that is not SETTINGS leaves the core as it is. -/
theorem handleFrame_core (h : ¬ i.Is .settings) : (i.result core).core = core := by
  unfold CoreInput.result handleFrame
  unfold CoreInput.Is at h
  split
  · rfl
  · rename_i heq
    exact absurd heq h
  · exact CoreResult.add_core _ _
  · rfl
  · split_ifs
    · exact CoreResult.add_core _ _
    · rfl
    · exact CoreResult.add_core _ _
  · exact CoreResult.add_core _ _
  · exact CoreResult.add_core _ _
  · split_ifs
    · rfl
    · exact CoreResult.add_core _ _
  all_goals rfl

/-- SETTINGS whose texts find no memory leave the core as it is, too. -/
theorem handleFrame_settings (h : i.Is .settings) : i.result core =
    if i.alloc then handleSettings core i.frame.data else ⟨false, core, []⟩ := by
  unfold CoreInput.result handleFrame
  rw [h]
  cases i.alloc <;> rfl

/-- Only a SYN opens a stream, and only once SETTINGS were received. -/
theorem handleFrame_open {id : UInt32} (h : .openStream id ∈ (i.result core).actions) :
    core.settingsReceived = true := by
  have hadd : ∀ (r : CoreResult) (a : Action), a ≠ .openStream id → .openStream id ∉ r.actions →
      .openStream id ∉ (r.add a).actions := fun r a ha hr hmem => by
    unfold CoreResult.add addAction at hmem
    split_ifs at hmem
    · exact hr hmem
    · rcases List.mem_append.mp hmem with hmem | hmem
      · exact hr hmem
      · exact ha (List.mem_singleton.mp hmem).symm
  have hnone : ∀ core : SessionCore, .openStream id ∉ (⟨true, core, []⟩ : CoreResult).actions :=
    fun _ => List.not_mem_nil
  unfold CoreInput.result handleFrame at h
  split at h
  · exact absurd h (hnone core)
  · split_ifs at h
    · exact absurd h List.not_mem_nil
    · refine absurd h ?_
      unfold handleSettings
      dsimp only
      split_ifs <;> first
        | exact hadd _ _ nofun (hadd _ _ nofun (hnone _))
        | exact hadd _ _ nofun (hnone _)
        | exact hnone _
  · exact absurd h (hadd _ _ nofun (hnone core))
  · exact absurd h (hnone core)
  · split_ifs at h with hearly
    · exact absurd h (hadd _ _ nofun (hnone core))
    · exact absurd h List.not_mem_nil
    · simpa using hearly
  · exact absurd h (hadd _ _ nofun (hnone core))
  · exact absurd h (hadd _ _ nofun (hnone core))
  · split_ifs at h
    · exact absurd h (hnone core)
    · exact absurd h (hadd _ _ nofun (hnone core))
  all_goals exact absurd h (hnone core)

end Frame

/-- What a core knows after the frames `is`. -/
structure SessionCore.After (core : SessionCore) (md5 : PaddingMd5) (padding : Bytes)
    (is : List CoreInput) : Prop where
  md5 : core.paddingMd5 = md5.1
  padding : core.paddingData = padding
  received : core.settingsReceived = true ↔ ∃ s ∈ is, s.Is .settings ∧ s.alloc = true

section Sequence

variable {md5 : PaddingMd5} {padding : Bytes}

theorem SessionCore.After.next {core : SessionCore} {is : List CoreInput}
    (h : core.After md5 padding is) (i : CoreInput) :
    (i.result core).core.After md5 padding (is ++ [i]) := by
  have hold : ∀ s : CoreInput, s ∈ is ++ [i] ↔ s ∈ is ∨ s = i := fun s => by simp
  by_cases hset : i.Is .settings
  · rw [handleFrame_settings hset]
    by_cases halloc : i.alloc = true
    · rw [if_pos halloc, handleSettings_eq h.md5 h.padding]
      exact ⟨h.md5, h.padding, fun _ => ⟨i, (hold i).mpr (.inr rfl), hset, halloc⟩, fun _ => rfl⟩
    · rw [if_neg halloc]
      refine ⟨h.md5, h.padding, h.received.trans ?_⟩
      constructor
      · rintro ⟨s, hs, hsettles⟩
        exact ⟨s, (hold s).mpr (.inl hs), hsettles⟩
      · rintro ⟨s, hs, hsettles⟩
        rcases (hold s).mp hs with hs | rfl
        · exact ⟨s, hs, hsettles⟩
        · exact absurd hsettles.2 halloc
  · rw [handleFrame_core hset]
    refine ⟨h.md5, h.padding, h.received.trans ?_⟩
    constructor
    · rintro ⟨s, hs, hsettles⟩
      exact ⟨s, (hold s).mpr (.inl hs), hsettles⟩
    · rintro ⟨s, hs, hsettles⟩
      rcases (hold s).mp hs with hs | rfl
      · exact ⟨s, hs, hsettles⟩
      · exact absurd hsettles.1 hset

private theorem feed_after (md5 : PaddingMd5) (padding : Bytes) (is : List CoreInput) :
    ((SessionCore.init md5 padding).feed is).After md5 padding is := by
  induction is using List.reverseRecOn with
  | nil => exact ⟨rfl, rfl, by simp [SessionCore.feed, SessionCore.init]⟩
  | append_singleton is i ih =>
    rw [SessionCore.feed, List.foldl_append]
    exact ih.next i

/-- An empty SETTINGS frame is answered with the padding scheme. -/
theorem emptySettings_actions {i : CoreInput} {core : SessionCore} (hset : i.Is .settings)
    (hnil : i.frame.data = []) : (i.result core).actions ≠ [] := by
  have halloc : i.alloc = true := by
    by_contra hn
    exact i.copies (Bool.eq_false_iff.mpr hn) hnil
  rw [handleFrame_settings hset, if_pos halloc, hnil]
  have hmd5 : (parseSettings []).paddingMd5.length ≠ 32 := by decide
  have hversion : ¬ 2 ≤ (parseSettings []).version := by decide
  have hdiffers : (parseSettings []).paddingMd5.length ≠ 32 ∨
      (parseSettings []).paddingMd5 ≠ core.paddingMd5.take 32 := .inl hmd5
  unfold handleSettings
  dsimp only
  rw [if_pos hdiffers, CoreResult.add_first]
  simp [hversion]

/-- A sequence of frames is handled as documented exactly when no SETTINGS frame in it is empty: the
core takes an empty one for the settings of the client, and lets it open streams. -/
theorem coreRules_iff (md5 : PaddingMd5) (padding : Bytes) (is : List CoreInput) :
    CoreRules md5 padding is ↔ ∀ i ∈ is, i.Is .settings → i.frame.data ≠ [] := by
  constructor
  · intro h i hi hset hnil
    obtain ⟨before, after, heq⟩ := List.append_of_mem hi
    exact emptySettings_actions hset hnil ((h before i after heq).empty hset hnil).2
  · rintro h before i after rfl
    have hafter := feed_after md5 padding before
    have hsettles : (∃ s ∈ before, s.Is .settings ∧ s.alloc = true) ↔ ∃ s ∈ before, s.Settles := by
      constructor
      · rintro ⟨s, hs, hset, halloc⟩
        exact ⟨s, hs, hset, h s (List.mem_append_left _ hs) hset, halloc⟩
      · rintro ⟨s, hs, hset, -, halloc⟩
        exact ⟨s, hs, hset, halloc⟩
    have hreceived := hafter.received.trans hsettles
    refine ⟨fun id hopen => hreceived.mp (handleFrame_open hopen),
      fun hset hnil => ?_, fun hset => ?_,
      fun hsyn hnone => ?_, ?_⟩
    · exact absurd hnil (h i (List.mem_append_right _ (.head _)) hset)
    · obtain ⟨hset, -, halloc⟩ := hset
      rw [handleFrame_settings hset, if_pos halloc, handleSettings_eq hafter.md5 hafter.padding,
        hafter.md5, hafter.padding]
    · have hun : ((SessionCore.init md5 padding).feed before).settingsReceived = false :=
        Bool.eq_false_iff.mpr fun hr => hnone (hreceived.mp hr)
      unfold CoreInput.result handleFrame
      rw [hsyn]
      simp only [hun, Bool.not_false, if_true]
      rfl
    · exact (handleFrame_actions_length _ i.frame i.alloc).trans (by decide)

/-- SETTINGS without a payload and then a SYN for stream 1. -/
def emptySettingsThenSyn : List CoreInput :=
  [⟨{ cmd := 4, streamId := 0, dataLen := 0, data := [] }, true, nofun⟩,
    ⟨{ cmd := 1, streamId := 1, dataLen := 0, data := [] }, true, nofun⟩]

def zeroMd5 : PaddingMd5 := ⟨List.replicate 32 48, by decide⟩

/-- They open the stream, although no settings were sent. -/
theorem empty_settings_open : ¬ CoreRules zeroMd5 [] emptySettingsThenSyn ∧
    (handleFrame ((SessionCore.init zeroMd5 []).feed (emptySettingsThenSyn.take 1))
      { cmd := 1, streamId := 1, dataLen := 0, data := [] }).actions = [.openStream 1] := by
  refine ⟨fun h => ?_, by decide⟩
  obtain ⟨s, hs, hset, hne, -⟩ := (h (emptySettingsThenSyn.take 1) _ [] rfl).opened 1 (by decide)
  rw [List.mem_singleton.mp hs] at hne
  exact hne rfl

end Sequence

end NgxAnytls
