import NgxAnytls.Protocol
import NgxAnytls.Library.Cursor

/-! SETTINGS read byte by byte, and the grammar of its lines. -/

namespace NgxAnytls

open Library.Cursor

/-- `ngx_strlchr`: the position of `c`. -/
def strlchr (d : Bytes) (line last : Nat) (c : UInt8) : Option (Option Nat) := do
  let p ← scan (· != c) d last line
  some (if p < last then some p else none)

/-- The comparison of the key before `eq` with a text of the same length. -/
def keyIs (d : Bytes) (line eq : Nat) (text : Bytes) : Option Bool :=
  if eq - line = text.length then (slice d line text.length).map (· == text) else some false

/-- A line of `n` bytes. -/
def settingsLineAt (d : Bytes) (line n : Nat) (st : Settings) : Option Settings := do
  match ← strlchr d line (line + n) 61 with
  | none => some st
  | some eq =>
    if ← keyIs d line eq keyV then
      let value ← slice d (eq + 1) (n - 2)
      some { st with version := (ngxAtoi value).getD 1 }
    else if ← keyIs d line eq keyClient then
      let value ← slice d (eq + 1) (n - (eq - line) - 1)
      some { st with client := value }
    else if ← keyIs d line eq keyPaddingMd5 then
      let value ← slice d (eq + 1) (n - (eq - line) - 1)
      some { st with paddingMd5 := value }
    else some st

def parseSettingsLoopAt (d : Bytes) : Nat → Nat → Settings → Option Settings
  | 0, _, _ => none
  | fuel + 1, p, st =>
    if p < d.length then do
      let line := p
      let p ← scan (fun b => !isCrLf b) d d.length line
      let n := p - line
      let p ← scan isCrLf d d.length p
      if n = 0 then parseSettingsLoopAt d fuel p st
      else parseSettingsLoopAt d fuel p (← settingsLineAt d line n st)
    else some st

/-- `ngx_anytls_parse_settings` over the region `d`: no result once a byte outside of it is read. -/
def parseSettingsAt (d : Bytes) : Option Settings := parseSettingsLoopAt d (d.length + 1) 0 {}

section Region

variable {d line : Bytes} {i n : Nat} {st : Settings}

private theorem strlchr_eq (c : UInt8) (hn : i + n ≤ d.length) :
    strlchr d i (i + n) c = some (if c ∈ window d i (i + n) then
      some (i + ((window d i (i + n)).takeWhile (· != c)).length) else none) := by
  have hlen : (window d i (i + n)).length = n := by
    rw [window_length]
    omega
  unfold strlchr
  rw [scan_eq _ _ hn]
  by_cases hc : c ∈ window d i (i + n)
  · have hlt : ((window d i (i + n)).takeWhile (· != c)).length < n := by
      have hstop := takeWhile_length_lt (f := (· != c)) hc (by simp)
      rwa [hlen] at hstop
    rw [if_pos hc, Option.bind_eq_bind, Option.bind_some, if_pos (by omega)]
  · have hall : (window d i (i + n)).takeWhile (· != c) = window d i (i + n) := by
      apply List.takeWhile_eq_self_iff.mpr
      intro b hb
      simpa using fun heq : b = c => hc (heq ▸ hb)
    rw [if_neg hc, hall, hlen, Option.bind_eq_bind, Option.bind_some, if_neg (lt_irrefl _)]

private theorem keyIs_eq {key : Bytes} (text : Bytes) (hkey : window d i (i + key.length) = key)
    (hlen : i + key.length ≤ d.length) : keyIs d i (i + key.length) text = some (key == text) := by
  unfold keyIs
  by_cases htext : i + key.length - i = text.length
  · have hsame : key.length = text.length := by omega
    rw [if_pos htext, ← hsame, slice_eq hlen, hkey]
    rfl
  · rw [if_neg htext]
    have hne : key ≠ text := by
      rintro rfl
      exact htext (by omega)
    simp [hne]

/-- A line that starts at `i`. -/
theorem settingsLineAt_eq (hline : window d i (i + line.length) = line)
    (hlen : i + line.length ≤ d.length) :
    settingsLineAt d i line.length st = some (settingsLine st line) := by
  unfold settingsLineAt settingsLine
  rw [strlchr_eq _ hlen, hline]
  by_cases heq : (61 : UInt8) ∈ line
  · rw [if_pos heq]
    have hcontains : line.contains 61 = true := by simpa using heq
    have hle := (List.takeWhile_prefix (· != (61 : UInt8)) : line.takeWhile _ <+: line).length_le
    have hvalue : window d (i + (line.takeWhile (· != (61 : UInt8))).length + 1) (i + line.length) =
        (line.dropWhile (· != (61 : UInt8))).drop 1 := by
      rw [← window_drop, ← window_drop, hline, drop_takeWhile]
    have hkey : window d i (i + (line.takeWhile (· != (61 : UInt8))).length) =
        line.takeWhile (· != (61 : UInt8)) := by
      rw [← window_take d i _ (show _ ≤ i + line.length by omega), hline, take_takeWhile]
    have hlt : (line.takeWhile (· != (61 : UInt8))).length < line.length :=
      takeWhile_length_lt heq (by decide)
    have hread : ∀ m, i + (line.takeWhile (· != (61 : UInt8))).length + 1 + m = i + line.length →
        slice d (i + (line.takeWhile (· != (61 : UInt8))).length + 1) m =
          some ((line.dropWhile (· != (61 : UInt8))).drop 1) := by
      intro m hm
      rw [slice_eq (by omega), hm, hvalue]
    have hrest : slice d (i + (line.takeWhile (· != (61 : UInt8))).length + 1)
        (line.length - (i + (line.takeWhile (· != (61 : UInt8))).length - i) - 1) =
          some ((line.dropWhile (· != (61 : UInt8))).drop 1) := hread _ (by omega)
    have hkeyIs := fun text => keyIs_eq text hkey (by omega)
    generalize line.takeWhile (· != (61 : UInt8)) = key at *
    simp only [hcontains, Bool.not_true, Bool.false_eq_true, if_false, Option.bind_eq_bind,
      Option.bind_some, hkeyIs, beq_iff_eq, hrest]
    split_ifs with hv hclient hmd5
    · have hone : key.length = 1 := by rw [hv]; rfl
      rw [hread _ (by omega)]
      rfl
    · rfl
    · rfl
    · rfl
  · have hcontains : line.contains 61 = false := by simpa using heq
    rw [if_neg heq, hcontains]
    rfl

private theorem parseSettingsLoopAt_eq (fuel : Nat) (hi : i ≤ d.length)
    (hfuel : d.length - i < fuel) :
    parseSettingsLoopAt d fuel i st = some (parseSettingsLoop fuel (d.drop i) st) := by
  induction fuel generalizing i st with
  | zero => exact absurd hfuel (Nat.not_lt_zero _)
  | succ fuel ih =>
    unfold parseSettingsLoopAt parseSettingsLoop
    by_cases hend : i < d.length
    · have hne := drop_ne_nil hend
      have hline := window_scanned (fun b => !isCrLf b) d i d.length
      rw [window_end] at hline
      have hrest := drop_scan (fun b => !isCrLf b) d i
      have hle := scan_end_le (fun b => !isCrLf b) hi
      have hlast := scan_end_le isCrLf hle
      have htail := drop_scan isCrLf d (i + ((d.drop i).takeWhile fun b => !isCrLf b).length)
      rw [hrest] at hlast htail
      rw [if_pos hend, if_neg hne]
      dsimp only
      rw [scan_end, Option.bind_eq_bind, Option.bind_some, scan_end, Option.bind_some, hrest,
        Nat.add_sub_cancel_left]
      have hprogress : 0 < ((d.drop i).takeWhile fun b => !isCrLf b).length +
          (((d.drop i).dropWhile fun b => !isCrLf b).takeWhile isCrLf).length := by
        cases hd : d.drop i with
        | nil => exact absurd hd hne
        | cons b bs => by_cases hb : isCrLf b = true <;> simp [hb]
      by_cases hnil : (d.drop i).takeWhile (fun b => !isCrLf b) = []
      · rw [if_pos (by rw [hnil]; rfl), if_pos hnil, ih hlast (by omega), htail]
      · have hpos : ((d.drop i).takeWhile fun b => !isCrLf b).length ≠ 0 :=
          fun hzero => hnil (List.eq_nil_of_length_eq_zero hzero)
        rw [if_neg hpos, if_neg hnil, settingsLineAt_eq hline hle, Option.bind_eq_bind,
          Option.bind_some, ih hlast (by omega), htail]
    · have hnil : d.drop i = [] := List.drop_eq_nil_of_le (not_lt.mp hend)
      rw [if_neg hend, if_pos hnil]

end Region

/-- The maximal runs of bytes that end no line. -/
def settingsLines (d : Bytes) : List Bytes := (d.splitOnP isCrLf).filter (· ≠ [])

/-- The text of a line before its first `=`, and all of the text after it. -/
def keyValue (line : Bytes) : Option (Bytes × Bytes) :=
  if 61 ∈ line then some (line.takeWhile (· != 61), (line.dropWhile (· != 61)).drop 1) else none

/-- The values of the lines with that key. -/
def valuesOf (key : Bytes) (lines : List Bytes) : List Bytes :=
  (lines.filterMap keyValue).filterMap fun kv => if kv.1 = key then some kv.2 else none

def decimal (v : Bytes) : Nat := v.foldl (fun n b => n * 10 + (b.toNat - 48)) 0

/-- The number that the text of a version stands for. -/
def versionOf (v : Bytes) : Nat :=
  if v ≠ [] ∧ v.all isDigit = true ∧ decimal v ≤ maxIntT then decimal v else 1

/-- The last line of each key counts. -/
def settingsOf (lines : List Bytes) : Settings where
  version := ((valuesOf keyV lines).getLast?.map versionOf).getD 1
  client := (valuesOf keyClient lines).getLast?.getD []
  paddingMd5 := (valuesOf keyPaddingMd5 lines).getLast?.getD []

private theorem le_foldl_decimal (n : Nat) (bs : Bytes) :
    n ≤ bs.foldl (fun n b => n * 10 + (b.toNat - 48)) n := by
  induction bs generalizing n with
  | nil => exact le_rfl
  | cons b bs ih =>
    have hstep : n ≤ n * 10 + (b.toNat - 48) := by omega
    exact hstep.trans (ih _)

private theorem ngxAtoiLoop_eq (n : Nat) (bs : Bytes) (hn : n ≤ maxIntT) :
    ngxAtoiLoop n bs = if bs.all isDigit = true ∧
      bs.foldl (fun n b => n * 10 + (b.toNat - 48)) n ≤ maxIntT then
        some (bs.foldl (fun n b => n * 10 + (b.toNat - 48)) n) else none := by
  induction bs generalizing n with
  | nil => simp [ngxAtoiLoop, hn]
  | cons b bs ih =>
    unfold ngxAtoiLoop
    by_cases hb : isDigit b = true
    · rw [hb, if_neg (by decide), List.foldl_cons]
      by_cases hmax : maxIntT < n * 10 + (b.toNat - 48)
      · have hover := hmax.trans_le (le_foldl_decimal _ bs)
        rw [if_pos hmax, if_neg fun h => absurd h.2 (not_le.mpr hover)]
      · rw [if_neg hmax, ih _ (not_lt.mp hmax)]
        simp [hb]
    · rw [if_pos (by simpa using hb), if_neg fun h =>
        hb (List.all_eq_true.mp h.1 b List.mem_cons_self)]

private theorem ngxAtoi_getD (v : Bytes) : (ngxAtoi v).getD 1 = versionOf v := by
  unfold ngxAtoi versionOf
  by_cases hv : v = []
  · rw [if_pos hv, if_neg fun h => h.1 hv]
    rfl
  · have hdecimal : v.foldl (fun n b => n * 10 + (b.toNat - 48)) 0 = decimal v := rfl
    rw [if_neg hv, ngxAtoiLoop_eq 0 v (Nat.zero_le _), hdecimal]
    have hsame : (v ≠ [] ∧ v.all isDigit = true ∧ decimal v ≤ maxIntT) ↔
        v.all isDigit = true ∧ decimal v ≤ maxIntT := and_iff_right hv
    by_cases hfits : v.all isDigit = true ∧ decimal v ≤ maxIntT
    · rw [if_pos hfits, if_pos (hsame.mpr hfits)]
      rfl
    · rw [if_neg hfits, if_neg fun h => hfits (hsame.mp h)]
      rfl

section Lines

variable {line : Bytes} {lines : List Bytes} {st : Settings}

private theorem valuesOf_append (key : Bytes) (lines : List Bytes) (line : Bytes) :
    valuesOf key (lines ++ [line]) = valuesOf key lines ++ valuesOf key [line] := by
  unfold valuesOf
  rw [List.filterMap_append, List.filterMap_append]

private theorem valuesOf_singleton (key line : Bytes) :
    valuesOf key [line] = if 61 ∈ line ∧ line.takeWhile (· != 61) = key then
      [(line.dropWhile (· != 61)).drop 1] else [] := by
  unfold valuesOf keyValue
  by_cases heq : (61 : UInt8) ∈ line
  · by_cases hkey : line.takeWhile (· != (61 : UInt8)) = key <;> simp [heq, hkey]
  · simp [heq]

private theorem settingsOf_append (lines : List Bytes) (line : Bytes) :
    settingsOf (lines ++ [line]) = settingsLine (settingsOf lines) line := by
  unfold settingsLine
  by_cases heq : (61 : UInt8) ∈ line
  · have hcontains : line.contains 61 = true := by simpa using heq
    simp only [hcontains, Bool.not_true, Bool.false_eq_true, if_false]
    have hother : ∀ key, line.takeWhile (· != (61 : UInt8)) ≠ key →
        valuesOf key (lines ++ [line]) = valuesOf key lines := by
      intro key hne
      rw [valuesOf_append, valuesOf_singleton, if_neg fun h => hne h.2, List.append_nil]
    have hlast : ∀ key, line.takeWhile (· != (61 : UInt8)) = key →
        (valuesOf key (lines ++ [line])).getLast? =
          some ((line.dropWhile (· != (61 : UInt8))).drop 1) := by
      intro key hkey
      rw [valuesOf_append, valuesOf_singleton, if_pos ⟨heq, hkey⟩, List.getLast?_concat]
    unfold settingsOf
    split_ifs with hv hclient hmd5
    · rw [hlast keyV hv, hother keyClient (by rw [hv]; decide),
        hother keyPaddingMd5 (by rw [hv]; decide), ngxAtoi_getD]
      rfl
    · rw [hlast keyClient hclient, hother keyV hv, hother keyPaddingMd5 (by rw [hclient]; decide)]
      rfl
    · rw [hlast keyPaddingMd5 hmd5, hother keyV hv, hother keyClient hclient]
      rfl
    · rw [hother keyV hv, hother keyClient hclient, hother keyPaddingMd5 hmd5]
  · have hcontains : line.contains 61 = false := by simpa using heq
    have hnone : ∀ key, valuesOf key (lines ++ [line]) = valuesOf key lines := by
      intro key
      rw [valuesOf_append, valuesOf_singleton, if_neg fun h => heq h.1, List.append_nil]
    unfold settingsOf
    simp only [hnone, hcontains, Bool.not_false, if_true]

private theorem settingsOf_foldl (lines : List Bytes) :
    settingsOf lines = lines.foldl settingsLine {} := by
  induction lines using List.reverseRecOn with
  | nil => rfl
  | append_singleton lines line ih => rw [settingsOf_append, List.foldl_concat, ih]

/-- Line ends in front of a line do not count. -/
theorem settingsLines_dropWhile (bs : Bytes) :
    settingsLines (bs.dropWhile isCrLf) = settingsLines bs := by
  induction bs with
  | nil => rfl
  | cons b bs ih =>
    rw [List.dropWhile_cons]
    split_ifs with hb
    · rw [ih]
      unfold settingsLines
      rw [List.splitOnP_cons_eq_if_modifyHead, if_pos hb, List.filter_cons_of_neg (by simp)]
    · rfl

/-- The first run, which ends at a line end or with the text. -/
theorem settingsLines_line {rest : Bytes} (hline : ∀ b ∈ line, isCrLf b = false) (hne : line ≠ [])
    (hrest : rest = [] ∨ ∃ b bs, rest = b :: bs ∧ isCrLf b = true) :
    settingsLines (line ++ rest) = line :: settingsLines rest := by
  unfold settingsLines
  rcases hrest with rfl | ⟨b, bs, rfl, hb⟩
  · rw [List.append_nil, List.splitOnP_eq_singleton hline,
      List.filter_cons_of_pos (by simpa using hne)]
    rfl
  · rw [List.splitOnP_append_cons_of_forall_mem hline b hb,
      List.filter_cons_of_pos (by simpa using hne), List.splitOnP_cons_eq_if_modifyHead, if_pos hb,
      List.filter_cons_of_neg (by simp)]

private theorem parseSettingsLoop_eq (fuel : Nat) (p : Bytes) (hfuel : p.length ≤ fuel) :
    parseSettingsLoop fuel p st = (settingsLines p).foldl settingsLine st := by
  induction fuel generalizing p st with
  | zero =>
    rw [List.eq_nil_of_length_eq_zero (Nat.le_zero.mp hfuel)]
    rfl
  | succ fuel ih =>
    unfold parseSettingsLoop
    by_cases hp : p = []
    · rw [if_pos hp, hp]
      rfl
    rw [if_neg hp]
    dsimp only
    have hsplit := @List.takeWhile_append_dropWhile _ (fun b => !isCrLf b) p
    have hrest : p.dropWhile (fun b => !isCrLf b) = [] ∨
        ∃ b bs, p.dropWhile (fun b => !isCrLf b) = b :: bs ∧ isCrLf b = true := by
      cases hd : p.dropWhile (fun b => !isCrLf b) with
      | nil => exact .inl rfl
      | cons b bs =>
        have hstop := List.head_dropWhile_not (fun b => !isCrLf b)
          (show p.dropWhile (fun b => !isCrLf b) ≠ [] by rw [hd]; exact List.cons_ne_nil b bs)
        simp only [hd, List.head_cons] at hstop
        exact .inr ⟨b, bs, rfl, by simpa using hstop⟩
    have hle := (List.dropWhile_suffix isCrLf (l := p.dropWhile fun b => !isCrLf b)).length_le
    have hlen := congrArg List.length hsplit
    rw [List.length_append] at hlen
    by_cases hnil : p.takeWhile (fun b => !isCrLf b) = []
    · rw [hnil, List.nil_append] at hsplit
      obtain hd | ⟨b, bs, hd, hb⟩ := hrest
      · exact absurd (hsplit.symm.trans hd) hp
      have hshort : (p.dropWhile isCrLf).length ≤ fuel := by
        have htail := (List.dropWhile_suffix isCrLf (l := bs)).length_le
        rw [hd] at hsplit
        rw [← hsplit, List.dropWhile_cons_of_pos hb]
        rw [← hsplit, List.length_cons] at hfuel
        omega
      rw [if_pos hnil, hsplit, ih _ hshort, settingsLines_dropWhile]
    · have hpos : 0 < (p.takeWhile fun b => !isCrLf b).length := List.length_pos_iff.mpr hnil
      have hshort : ((p.dropWhile fun b => !isCrLf b).dropWhile isCrLf).length ≤ fuel := by omega
      have hfree : ∀ b ∈ p.takeWhile (fun b => !isCrLf b), isCrLf b = false := by
        intro b hb
        simpa using List.mem_takeWhile_imp hb
      have hlines := settingsLines_line hfree hnil hrest
      rw [hsplit] at hlines
      rw [if_neg hnil, ih _ hshort, settingsLines_dropWhile, hlines, List.foldl_cons]

private theorem parseSettings_eq (d : Bytes) : parseSettings d = settingsOf (settingsLines d) := by
  rw [settingsOf_foldl, parseSettings, parseSettingsLoop_eq _ _ le_rfl]

/-- The parser stays inside its input and gives what the lines say: lines without `=` and unknown
keys do not count, of each key the last line does, and a version that is no number is 1. -/
theorem parseSettings_grammar (d : Bytes) :
    parseSettingsAt d = some (parseSettings d) ∧
      parseSettings d = settingsOf (settingsLines d) ∧
      settingsOf (settingsLines d) = (settingsLines d).foldl settingsLine {} := by
  have hfold := settingsOf_foldl (settingsLines d)
  refine ⟨?_, parseSettings_eq d, hfold⟩
  rw [parseSettings_eq, hfold, parseSettingsAt, parseSettingsLoopAt_eq _ (Nat.zero_le _) (by omega),
    List.drop_zero, parseSettingsLoop_eq _ _ (Nat.le_succ _)]

end Lines

end NgxAnytls
