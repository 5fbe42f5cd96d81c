import NgxAnytls.Protocol
import NgxAnytls.Library.Cursor

/-! Padding schemes (`ngx_anytls_padding.c`): the scanner and the grammar it accepts. -/

namespace NgxAnytls

open Library.Cursor

def isBlank (b : UInt8) : Bool := b == 10 || b == 13 || b == 32 || b == 9

/-- A byte that ends no key. -/
def isKeyByte (b : UInt8) : Bool := b != 61 && b != 10 && b != 13

/-- The key `stop`. -/
def keyStop : Bytes := [115, 116, 111, 112]

/-- Whether the key between `p` and `eq` is `stop`. -/
def isStop (d : Bytes) (p eq : Nat) : Option Bool :=
  if eq - p = keyStop.length then (slice d p keyStop.length).map (· == keyStop) else some false

/-- The item loop of `ngx_anytls_padding_validate`; `false` is `NGX_ERROR`. -/
def paddingLoopAt (d : Bytes) : Nat → Nat → Bool → Option Bool
  | 0, _, _ => none
  | fuel + 1, p, sawStop =>
    if p < d.length then do
      let p ← scan isBlank d d.length p
      if p = d.length then some sawStop
      else if (← d[p]?) = 35 then
        let p ← scan (· != 10) d d.length p
        paddingLoopAt d fuel p sawStop
      else
        let eq ← scan isKeyByte d d.length p
        if eq = d.length then some false
        else if (← d[eq]?) ≠ 61 then some false
        else
          let stop ← isStop d p eq
          let p ← scan (fun b => !isCrLf b) d d.length (eq + 1)
          paddingLoopAt d fuel p (sawStop || stop)
    else some sawStop

/-- `ngx_anytls_padding_validate` over the region `d`: whether it answers `NGX_OK`, and no result
once a byte outside of the region is read. -/
def paddingValidate (d : Bytes) : Option Bool :=
  if d = [] then some false else paddingLoopAt d (d.length + 1) 0 false

/-- The item loop on the bytes that are left. -/
def paddingLoop : Nat → Bytes → Bool → Bool
  | 0, _, sawStop => sawStop
  | fuel + 1, bs, sawStop =>
    match bs.dropWhile isBlank with
    | [] => sawStop
    | b :: rest =>
      if b = 35 then paddingLoop fuel (rest.dropWhile (· != 10)) sawStop
      else
        match (b :: rest).dropWhile isKeyByte with
        | [] => false
        | c :: value =>
          if c ≠ 61 then false
          else paddingLoop fuel (value.dropWhile fun b => !isCrLf b)
            (sawStop || (b :: rest).takeWhile isKeyByte == keyStop)

section Region

variable {d : Bytes} {i : Nat} {saw : Bool}

private theorem drop_cons {b : UInt8} {bs : Bytes} (h : d.drop i = b :: bs) :
    d[i]? = some b ∧ d.drop (i + 1) = bs ∧ i < d.length := by
  have hlt : i < d.length := by
    by_contra hge
    rw [List.drop_eq_nil_of_le (not_lt.mp hge)] at h
    cases h
  rw [List.drop_eq_getElem_cons hlt] at h
  obtain ⟨hhead, htail⟩ := List.cons.inj h
  exact ⟨by rw [List.getElem?_eq_getElem hlt, hhead], htail, hlt⟩

private theorem isStop_eq (hi : i ≤ d.length) :
    isStop d i (i + ((d.drop i).takeWhile isKeyByte).length) =
      some ((d.drop i).takeWhile isKeyByte == keyStop) := by
  have hkey := window_scanned isKeyByte d i d.length
  have hle := scan_end_le isKeyByte hi
  rw [window_end] at hkey
  unfold isStop
  rw [Nat.add_sub_cancel_left]
  by_cases hlen : ((d.drop i).takeWhile isKeyByte).length = keyStop.length
  · rw [if_pos hlen, ← hlen, slice_eq hle, hkey]
    rfl
  · rw [if_neg hlen]
    have hne : (d.drop i).takeWhile isKeyByte ≠ keyStop := fun heq => hlen (congrArg _ heq)
    simp [hne]

private theorem paddingLoopAt_eq (fuel : Nat) (hi : i ≤ d.length) (hfuel : d.length - i < fuel) :
    paddingLoopAt d fuel i saw = some (paddingLoop fuel (d.drop i) saw) := by
  induction fuel generalizing i saw with
  | zero => exact absurd hfuel (Nat.not_lt_zero _)
  | succ fuel ih =>
    unfold paddingLoopAt paddingLoop
    by_cases hend : i < d.length
    · have hle := scan_end_le isBlank hi
      rw [if_pos hend]
      simp only [Option.bind_eq_bind]
      rw [scan_end, Option.bind_some, ← drop_scan isBlank d i]
      have hge : i ≤ i + ((d.drop i).takeWhile isBlank).length := Nat.le_add_right _ _
      generalize i + ((d.drop i).takeWhile isBlank).length = p at hle hge ⊢
      cases hp : d.drop p with
      | nil =>
        have hlast : p = d.length := le_antisymm hle (List.drop_eq_nil_iff.mp hp)
        rw [if_pos hlast]
      | cons b rest =>
        obtain ⟨hb, hrest, hlt⟩ := drop_cons hp
        have hkeyle := scan_end_le isKeyByte hle
        dsimp only
        rw [if_neg (Nat.ne_of_lt hlt), hb, Option.bind_some]
        by_cases hcomment : b = 35
        · have htext : (d.drop p).dropWhile (· != 10) = rest.dropWhile (· != 10) := by
            rw [hp, List.dropWhile_cons_of_pos (by rw [hcomment]; decide)]
          have hpos : 0 < ((d.drop p).takeWhile (· != 10)).length := by
            rw [hp, List.takeWhile_cons_of_pos (by rw [hcomment]; decide)]
            exact Nat.succ_pos _
          have htextle := scan_end_le (· != 10) hle
          rw [if_pos hcomment, if_pos hcomment, scan_end, Option.bind_some, ih htextle (by omega),
            drop_scan, htext]
        · rw [if_neg hcomment, if_neg hcomment, scan_end, Option.bind_some, ← hp,
            ← drop_scan isKeyByte d p]
          have hstop := isStop_eq hle
          have hpos : p ≤ p + ((d.drop p).takeWhile isKeyByte).length := Nat.le_add_right _ _
          generalize (d.drop p).takeWhile isKeyByte = key at hkeyle hstop hpos ⊢
          generalize p + key.length = eq at hkeyle hstop hpos ⊢
          cases heq : d.drop eq with
          | nil =>
            have hlast : eq = d.length := le_antisymm hkeyle (List.drop_eq_nil_iff.mp heq)
            rw [if_pos hlast]
          | cons c value =>
            obtain ⟨hc, hvalue, hltEq⟩ := drop_cons heq
            dsimp only
            rw [if_neg (Nat.ne_of_lt hltEq), hc, Option.bind_some]
            by_cases hsep : c ≠ 61
            · rw [if_pos hsep, if_pos hsep]
            · have hnextle := scan_end_le (fun b => !isCrLf b) (show eq + 1 ≤ d.length from hltEq)
              rw [if_neg hsep, if_neg hsep, hstop, Option.bind_some, scan_end, Option.bind_some,
                ih hnextle (by omega), drop_scan, hvalue]
    · have hnil : d.drop i = [] := List.drop_eq_nil_of_le (not_lt.mp hend)
      rw [if_neg hend, hnil]
      rfl

end Region

/-- An item of a scheme. -/
inductive PaddingItem where
  | comment (text : Bytes)
  | line (key value : Bytes)

/-- The items of a scheme, each behind blanks: a comment runs from `#` to the next LF, a line to the
next CR or LF and has a `=`. -/
inductive Scheme : Bytes → List PaddingItem → Prop where
  | done {blanks : Bytes} (hblanks : ∀ b ∈ blanks, isBlank b = true) : Scheme blanks []
  | comment {blanks text rest : Bytes} {items : List PaddingItem}
      (hblanks : ∀ b ∈ blanks, isBlank b = true) (htext : ∀ b ∈ text, b ≠ 10)
      (hend : rest = [] ∨ ∃ q, rest = 10 :: q) (hrest : Scheme rest items) :
      Scheme (blanks ++ 35 :: (text ++ rest)) (.comment text :: items)
  | line {blanks key value rest : Bytes} {items : List PaddingItem}
      (hblanks : ∀ b ∈ blanks, isBlank b = true) (hkey : ∀ b ∈ key, b ≠ 61 ∧ b ≠ 10 ∧ b ≠ 13)
      (hfirst : ∀ b ∈ key.head?, isBlank b = false ∧ b ≠ 35)
      (hvalue : ∀ b ∈ value, b ≠ 10 ∧ b ≠ 13)
      (hend : rest = [] ∨ ∃ b q, rest = b :: q ∧ (b = 10 ∨ b = 13)) (hrest : Scheme rest items) :
      Scheme (blanks ++ (key ++ 61 :: (value ++ rest))) (.line key value :: items)

/-- Whether a line of the scheme names `stop`. -/
def HasStop (items : List PaddingItem) : Prop := ∃ value, .line keyStop value ∈ items

section Grammar

variable {bs : Bytes} {items : List PaddingItem} {saw : Bool}

private theorem isKeyByte_iff (b : UInt8) : isKeyByte b = true ↔ b ≠ 61 ∧ b ≠ 10 ∧ b ≠ 13 := by
  simp [isKeyByte, and_assoc]

private theorem lineByte_iff (b : UInt8) : (!isCrLf b) = true ↔ b ≠ 10 ∧ b ≠ 13 := by
  simp [isCrLf]

private theorem hasStop_comment (text : Bytes) :
    HasStop (.comment text :: items) ↔ HasStop items := by
  constructor
  · rintro ⟨value, hin⟩
    rcases List.mem_cons.mp hin with heq | hin
    · cases heq
    · exact ⟨value, hin⟩
  · rintro ⟨value, hin⟩
    exact ⟨value, List.mem_cons_of_mem _ hin⟩

private theorem hasStop_line (key value : Bytes) :
    HasStop (.line key value :: items) ↔ key = keyStop ∨ HasStop items := by
  constructor
  · rintro ⟨v, hin⟩
    rcases List.mem_cons.mp hin with heq | hin
    · cases heq
      exact .inl rfl
    · exact .inr ⟨v, hin⟩
  · rintro (rfl | ⟨v, hin⟩)
    · exact ⟨value, List.mem_cons_self⟩
    · exact ⟨v, List.mem_cons_of_mem _ hin⟩

/-- A scheme of the grammar is accepted when `stop` was named or is in it. -/
theorem paddingLoop_complete (h : Scheme bs items) (fuel : Nat) (hfuel : bs.length < fuel)
    (hstop : saw = true ∨ HasStop items) : paddingLoop fuel bs saw = true := by
  induction h generalizing fuel saw with
  | done hblanks =>
    cases fuel with
    | zero => exact absurd hfuel (Nat.not_lt_zero _)
    | succ fuel =>
      unfold paddingLoop
      rw [List.dropWhile_eq_nil_iff.mpr hblanks]
      rcases hstop with hsaw | ⟨value, hin⟩
      · exact hsaw
      · cases hin
  | @comment blanks text rest items hblanks htext hend hrest ih =>
    cases fuel with
    | zero => exact absurd hfuel (Nat.not_lt_zero _)
    | succ fuel =>
      have htail : (text ++ rest).dropWhile (· != 10) = rest := by
        refine (run_append (fun b hb => by simpa using htext b hb) ?_).2
        rcases hend with rfl | ⟨q, rfl⟩
        · exact fun a ha => by cases ha
        · rintro a ⟨⟩
          rfl
      have hshort : rest.length < fuel := by
        simp only [List.length_append, List.length_cons] at hfuel
        omega
      unfold paddingLoop
      rw [List.dropWhile_append_of_pos hblanks, List.dropWhile_cons_of_neg (by decide)]
      dsimp only
      rw [if_pos rfl, htail]
      exact ih fuel hshort (hstop.imp_right (hasStop_comment text).mp)
  | @line blanks key value rest items hblanks hkey hfirst hvalue hend hrest ih =>
    cases fuel with
    | zero => exact absurd hfuel (Nat.not_lt_zero _)
    | succ fuel =>
      have htail : (value ++ rest).dropWhile (fun b => !isCrLf b) = rest := by
        refine (run_append (fun b hb => (lineByte_iff b).mpr (hvalue b hb)) ?_).2
        rcases hend with rfl | ⟨b, q, rfl, hb⟩
        · exact fun a ha => by cases ha
        · rintro a ⟨⟩
          rcases hb with rfl | rfl <;> rfl
      have hrun : (key ++ 61 :: (value ++ rest)).takeWhile isKeyByte = key ∧
          (key ++ 61 :: (value ++ rest)).dropWhile isKeyByte = 61 :: (value ++ rest) :=
        run_append (fun b hb => (isKeyByte_iff b).mpr (hkey b hb)) (by rintro a ⟨⟩; rfl)
      have hshort : rest.length < fuel := by
        simp only [List.length_append, List.length_cons] at hfuel
        omega
      have hitem : ∃ b q, key ++ 61 :: (value ++ rest) = b :: q ∧ isBlank b = false ∧ b ≠ 35 := by
        cases key with
        | nil => exact ⟨61, value ++ rest, rfl, rfl, by decide⟩
        | cons b q => exact ⟨b, q ++ 61 :: (value ++ rest), rfl, hfirst b rfl⟩
      obtain ⟨b, q, hcons, hblank, hcomment⟩ := hitem
      unfold paddingLoop
      rw [List.dropWhile_append_of_pos hblanks]
      rw [hcons] at hrun ⊢
      rw [List.dropWhile_cons_of_neg (by rw [hblank]; decide)]
      dsimp only
      rw [if_neg hcomment, hrun.2]
      dsimp only
      rw [if_neg (by decide), hrun.1, htail]
      apply ih fuel hshort
      rcases hstop with hsaw | hstop
      · exact .inl (by rw [hsaw, Bool.true_or])
      · rcases (hasStop_line key value).mp hstop with rfl | hstop
        · exact .inl (by simp)
        · exact .inr hstop

/-- What is accepted is a scheme of the grammar. -/
theorem paddingLoop_sound (fuel : Nat) (hfuel : bs.length < fuel)
    (hok : paddingLoop fuel bs saw = true) :
    ∃ items, Scheme bs items ∧ (saw = true ∨ HasStop items) := by
  induction fuel generalizing bs saw with
  | zero => exact absurd hfuel (Nat.not_lt_zero _)
  | succ fuel ih =>
    have hblanks : ∀ b ∈ bs.takeWhile isBlank, isBlank b = true := fun _ => List.mem_takeWhile_imp
    have hsplit := @List.takeWhile_append_dropWhile _ isBlank bs
    have hstart := head_dropWhile (f := isBlank) (l := bs)
    unfold paddingLoop at hok
    generalize bs.takeWhile isBlank = blanks at hblanks hsplit
    cases hd : bs.dropWhile isBlank with
    | nil =>
      rw [hd] at hok
      rw [hd, List.append_nil] at hsplit
      exact ⟨[], hsplit ▸ .done hblanks, .inl hok⟩
    | cons b rest =>
      have hblank : isBlank b = false := hstart b (by rw [hd]; rfl)
      rw [hd] at hok hsplit
      subst hsplit
      dsimp only at hok
      simp only [List.length_append, List.length_cons] at hfuel
      by_cases hcomment : b = 35
      · subst hcomment
        have htext : ∀ b ∈ rest.takeWhile (· != 10), b ≠ 10 := by
          intro b hb
          simpa using List.mem_takeWhile_imp hb
        have hend : rest.dropWhile (· != 10) = [] ∨ ∃ q, rest.dropWhile (· != 10) = 10 :: q := by
          have hstop := head_dropWhile (f := (· != (10 : UInt8))) (l := rest)
          cases hrest : rest.dropWhile (· != 10) with
          | nil => exact .inl rfl
          | cons c q =>
            have hc : c = 10 := by simpa using hstop c (by rw [hrest]; rfl)
            exact .inr ⟨q, by rw [hc]⟩
        have hle := (List.dropWhile_suffix (· != (10 : UInt8)) (l := rest)).length_le
        rw [if_pos rfl] at hok
        obtain ⟨items, hscheme, hstop⟩ := ih (by omega) hok
        refine ⟨.comment (rest.takeWhile (· != 10)) :: items, ?_,
          hstop.imp_right (hasStop_comment _).mpr⟩
        have happ := Scheme.comment hblanks htext hend hscheme
        rwa [List.takeWhile_append_dropWhile] at happ
      · have hkey : ∀ c ∈ (b :: rest).takeWhile isKeyByte, c ≠ 61 ∧ c ≠ 10 ∧ c ≠ 13 :=
          fun c hc => (isKeyByte_iff c).mp (List.mem_takeWhile_imp hc)
        have hfirst : ∀ c ∈ ((b :: rest).takeWhile isKeyByte).head?,
            isBlank c = false ∧ c ≠ 35 := by
          intro c hc
          rw [List.takeWhile_cons] at hc
          split_ifs at hc
          · cases hc
            exact ⟨hblank, hcomment⟩
          · cases hc
        have hparts := @List.takeWhile_append_dropWhile _ isKeyByte (b :: rest)
        rw [if_neg hcomment] at hok
        generalize (b :: rest).takeWhile isKeyByte = key at hok hkey hfirst hparts
        cases hsep : (b :: rest).dropWhile isKeyByte with
        | nil =>
          rw [hsep] at hok
          cases hok
        | cons c value =>
          rw [hsep] at hok hparts
          dsimp only at hok
          by_cases hc : c ≠ 61
          · rw [if_pos hc] at hok
            cases hok
          · rw [if_neg hc] at hok
            obtain rfl : c = 61 := not_not.mp hc
            have hvalue : ∀ b ∈ value.takeWhile (fun b => !isCrLf b), b ≠ 10 ∧ b ≠ 13 :=
              fun b hb => (lineByte_iff b).mp (List.mem_takeWhile_imp (p := fun b => !isCrLf b) hb)
            have hend : value.dropWhile (fun b => !isCrLf b) = [] ∨ ∃ b q,
                value.dropWhile (fun b => !isCrLf b) = b :: q ∧ (b = 10 ∨ b = 13) := by
              have hstop := head_dropWhile (f := fun b => !isCrLf b) (l := value)
              cases hrest : value.dropWhile (fun b => !isCrLf b) with
              | nil => exact .inl rfl
              | cons c q =>
                have hcrlf : (!isCrLf c) = false := hstop c (by rw [hrest]; rfl)
                exact .inr ⟨c, q, rfl, or_iff_not_imp_left.mpr (by simpa [isCrLf] using hcrlf)⟩
            have hle := (List.dropWhile_suffix (fun b => !isCrLf b) (l := value)).length_le
            have hlen := congrArg List.length hparts
            simp only [List.length_append, List.length_cons] at hlen
            obtain ⟨items, hscheme, hstop⟩ := ih (by omega) hok
            refine ⟨.line key (value.takeWhile fun b => !isCrLf b) :: items, ?_, ?_⟩
            · have happ := Scheme.line hblanks hkey hfirst hvalue hend hscheme
              rwa [List.takeWhile_append_dropWhile, hparts] at happ
            · rcases hstop with hsaw | hstop
              · rcases Bool.or_eq_true_iff.mp hsaw with hsaw | hkeyStop
                · exact .inl hsaw
                · exact .inr ((hasStop_line _ _).mpr (.inl (by simpa using hkeyStop)))
              · exact .inr ((hasStop_line _ _).mpr (.inr hstop))

/-- The validation ends, stays inside its input and accepts the schemes of the grammar in which a
line names `stop`. -/
theorem paddingValidate_grammar (d : Bytes) :
    (∃ ok, paddingValidate d = some ok) ∧
      (paddingValidate d = some true ↔ ∃ items, Scheme d items ∧ HasStop items) := by
  by_cases hd : d = []
  · subst hd
    refine ⟨⟨false, rfl⟩, fun hok => absurd hok (by decide), ?_⟩
    rintro ⟨items, hscheme, value, hin⟩
    generalize hnil : ([] : Bytes) = bs at hscheme
    cases hscheme with
    | done => cases hin
    | comment => simp at hnil
    | line => simp at hnil
  · have hloop : paddingValidate d = some (paddingLoop (d.length + 1) d false) := by
      rw [paddingValidate, if_neg hd, paddingLoopAt_eq _ (Nat.zero_le _) (by omega), List.drop_zero]
    rw [hloop]
    refine ⟨⟨_, rfl⟩, fun hok => ?_, ?_⟩
    · obtain ⟨items, hscheme, hfalse | hstop⟩ :=
        paddingLoop_sound _ (Nat.lt_succ_self _) (Option.some.inj hok)
      · cases hfalse
      · exact ⟨items, hscheme, hstop⟩
    · rintro ⟨items, hscheme, hstop⟩
      rw [paddingLoop_complete hscheme _ (Nat.lt_succ_self _) (.inr hstop)]

end Grammar

end NgxAnytls
