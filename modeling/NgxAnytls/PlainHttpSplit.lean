import NgxAnytls.PlainHttp

/-! Whether the answer to plain HTTP depends on how much of the request a peek sees. -/

namespace NgxAnytls

variable {w p m r line hs : Bytes} {na : Bool}

/-- An answer to a part of the bytes is the answer to all of them. -/
def SplitFree (w : Bytes) : Prop := ∀ p, p <+: w → isHttp p ≠ .again → isHttp p = isHttp w

/-- A request line that names no version that is answered. -/
def NamesNone (m line : Bytes) : Prop :=
  hasText http11Text (m ++ 32 :: line) = false ∧ hasText http10Text (m ++ 32 :: line) = false

/-- The line names HTTP/1.0, or HTTP/1.1 and there is a host. -/
def NamesServed (m line : Bytes) (sawHost : Bool) : Prop :=
  (hasText http11Text (m ++ 32 :: line) = true ∧ sawHost = true) ∨
    hasText http10Text (m ++ 32 :: line) = true

/-- The whole of the bytes has the default answer: the head is complete and names no served
version, it will not fit, or it is a line of another version with nothing behind it. -/
def Refused (w m line hs : Bytes) : Prop :=
  (∃ sawHost, scanHeaders hs [] false = some sawHost ∧ ¬ NamesServed m line sawHost) ∨
    (scanHeaders hs [] false = none ∧ plainHttpPeek ≤ w.length) ∨ (hs = [] ∧ NamesNone m line)

/-- The front of a request line is a URI, a space and `HTTP/`. -/
def IsVersioned (q : Bytes) : Prop :=
  ∃ uri v, q = uri ++ 32 :: v ∧ (∀ b ∈ uri, IsUriByte b) ∧ httpSlash <+: v

/-- What a request must be like for a peek not to matter. Either no answer is given inside its
request line, or it is the default answer all requests that start so get; and a complete request
line without a version is not followed by a part of the header lines only. -/
def PeekSafe (w : Bytes) : Prop :=
  ∀ na m r line hs, lineStart w = .line na m r → findLineEnd r = some (line, hs) →
    (plainHttpMinPeek ≤ (m ++ 32 :: lineHead line).length →
      IsVersioned (lineHead line) ∨ Refused w m line hs) ∧
    (plainHttpMinPeek ≤ (m ++ 32 :: line).length → crlf <:+ line → NamesNone m line →
      hs = [] ∨ scanHeaders hs [] false ≠ none ∨ plainHttpPeek ≤ w.length)

theorem isHttp_short (h : p.length < plainHttpMinPeek) : isHttp p = .again := by
  unfold isHttp
  rw [if_pos h]

theorem isHttp_error (hlen : plainHttpMinPeek ≤ p.length) (h : lineStart p = .error) :
    isHttp p = .error := by
  unfold isHttp
  rw [if_neg (not_lt.mpr hlen), h]

theorem isHttp_open (hlen : plainHttpMinPeek ≤ p.length) (h : lineStart p = .line na m r)
    (hend : findLineEnd r = none) : isHttp p = openLine (decide (plainHttpPeek ≤ p.length)) r := by
  unfold isHttp
  rw [if_neg (not_lt.mpr hlen), h]
  dsimp only
  rw [hend]

/-- The answer to a request whose line is complete. -/
theorem isHttp_line (hlen : plainHttpMinPeek ≤ p.length) (h : lineStart p = .line na m r)
    (hend : findLineEnd r = some (line, hs)) :
    (hs = [] → NamesNone m line → isHttp p = .error) ∧
      (hs = [] → ¬ NamesNone m line → isHttp p = httpWait (decide (plainHttpPeek ≤ p.length))) ∧
      (hs ≠ [] → scanHeaders hs [] false = none →
        isHttp p = httpWait (decide (plainHttpPeek ≤ p.length))) ∧
      ∀ sawHost, scanHeaders hs [] false = some sawHost →
        (NamesServed m line sawHost → isHttp p = if na then .busy else .ok) ∧
        (¬ NamesServed m line sawHost → isHttp p = .error) := by
  unfold isHttp
  rw [if_neg (not_lt.mpr hlen), h]
  dsimp only
  rw [hend]
  dsimp only
  refine ⟨fun hnil hnone => ?_, fun hnil hnone => ?_, fun hne hpart => ?_, fun sawHost hhead => ?_⟩
  · rw [if_pos hnil, if_pos (by rw [hnone.1, hnone.2]; rfl)]
  · rw [if_pos hnil, if_neg (fun hb => hnone (by simpa [NamesNone] using hb))]
  · rw [if_neg hne, hpart]
  · have hne : hs ≠ [] := by
      rintro rfl
      cases hhead
    rw [if_neg hne, hhead]
    dsimp only
    have hserved : ((hasText http11Text (m ++ 32 :: line) && sawHost) ||
        hasText http10Text (m ++ 32 :: line)) = true ↔ NamesServed m line sawHost := by
      simp [NamesServed]
    exact ⟨fun hn => if_pos (hserved.mpr hn), fun hn => if_neg fun hb => hn (hserved.mp hb)⟩

/-- A complete request line has the default answer exactly when it is refused. -/
theorem isHttp_refused (hlen : plainHttpMinPeek ≤ p.length) (h : lineStart p = .line na m r)
    (hend : findLineEnd r = some (line, hs)) : isHttp p = .error ↔ Refused p m line hs := by
  obtain ⟨hbare, hwait, hpart, hwhole⟩ := isHttp_line hlen h hend
  have hwaits : httpWait (decide (plainHttpPeek ≤ p.length)) = .error ↔
      plainHttpPeek ≤ p.length := by
    by_cases hfull : plainHttpPeek ≤ p.length <;> simp [httpWait, hfull]
  cases hhead : scanHeaders hs [] false with
  | none =>
    by_cases hnil : hs = []
    · by_cases hnone : NamesNone m line
      · exact ⟨fun _ => .inr (.inr ⟨hnil, hnone⟩), fun _ => hbare hnil hnone⟩
      · rw [hwait hnil hnone, hwaits]
        unfold Refused
        rw [hhead]
        simp [hnone]
    · rw [hpart hnil hhead, hwaits]
      unfold Refused
      rw [hhead]
      simp [hnil]
  | some sawHost =>
    have hne : hs ≠ [] := by
      rintro rfl
      cases hhead
    obtain ⟨hserved, hnot⟩ := hwhole sawHost hhead
    unfold Refused
    rw [hhead]
    by_cases hnames : NamesServed m line sawHost
    · rw [hserved hnames]
      cases na <;> simp [hnames, hne]
    · rw [hnot hnames]
      simp [hnames]

/-- The front of a line up to the first byte of its end. -/
theorem lineHead_ends (h : LineEnds line hs) :
    ∃ l c, lineHead line = l ++ [c] ∧ (c = 13 ∨ c = 10) ∧ lineHead line <+: line ∧
      findLineEnd (lineHead line) = none := by
  cases h with
  | crlf l hline hwhole hopen =>
    have hhead : lineHead line = l ++ [13] := by
      unfold lineHead
      rw [if_pos (hline ▸ List.suffix_append l _), hline]
      have hsplit : l ++ crlf = (l ++ [13]) ++ [10] := by simp [crlf]
      rw [hsplit, List.dropLast_concat]
    refine ⟨l, 13, hhead, .inl rfl, ?_, by rw [hhead]; exact hopen⟩
    rw [hhead, hline]
    exact ⟨[10], by simp [crlf]⟩
  | lf l hline hs hcrlf hwhole hopen =>
    have hhead : lineHead line = line := if_neg hcrlf
    refine ⟨l, 10, hhead.trans hline, .inr rfl, by rw [hhead], by rw [hhead]; exact hopen⟩

/-- A part of the bytes that holds no end of a line is a part of the front. -/
theorem prefix_lineHead {x : Bytes} (h : LineEnds line hs) (hr : r ++ x = line ++ hs)
    (hopen : findLineEnd r = none) : r <+: lineHead line := by
  have hpre : r <+: line ++ hs := ⟨x, hr⟩
  cases h with
  | crlf l hline hwhole hopen' =>
    have hhead : lineHead line = l ++ [13] := by
      unfold lineHead
      rw [if_pos (hline ▸ List.suffix_append l _), hline]
      have hsplit : l ++ crlf = (l ++ [13]) ++ [10] := by simp [crlf]
      rw [hsplit, List.dropLast_concat]
    rcases Nat.lt_or_ge r.length line.length with hlt | hge
    · have hin : r <+: line := List.prefix_of_prefix_length_le hpre (List.prefix_append _ _) hlt.le
      have hfront : l ++ [13] <+: line := ⟨[10], by rw [hline]; simp [crlf]⟩
      rw [hhead]
      refine List.prefix_of_prefix_length_le hin hfront ?_
      rw [hline, List.length_append] at hlt
      simp only [crlf, List.length_append, List.length_cons, List.length_nil] at hlt ⊢
      omega
    · obtain ⟨y, rfl⟩ := List.prefix_of_prefix_length_le (List.prefix_append line hs) hpre hge
      rw [findLineEnd_append hwhole y] at hopen
      cases hopen
  | lf l hline hne hcrlf hwhole hopen' =>
    have hhead : lineHead line = line := if_neg hcrlf
    rw [hhead]
    rcases Nat.lt_or_ge line.length r.length with hlt | hge
    · obtain ⟨y, rfl⟩ := List.prefix_of_prefix_length_le (List.prefix_append line hs) hpre hlt.le
      cases y with
      | nil =>
        rw [List.append_nil] at hlt
        exact absurd hlt (lt_irrefl _)
      | cons b q =>
        rw [hwhole b q] at hopen
        cases hopen
    · exact List.prefix_of_prefix_length_le hpre (List.prefix_append _ _) hge

/-- The front of a complete line is waited for exactly when it has a version. -/
theorem continues_lineHead (h : LineEnds line hs) :
    Continues (lineHead line) ↔ IsVersioned (lineHead line) := by
  obtain ⟨l, c, hhead, hc, -, -⟩ := lineHead_ends h
  have hlast : ¬ IsUriByte c ∧ c ∉ httpSlash ∧ c ≠ 32 := by
    rcases hc with rfl | rfl <;> refine ⟨fun hu => hu.2 (.inl (by decide)), by decide, by decide⟩
  constructor
  · rintro (hall | ⟨uri, v, heq, huri, hv⟩)
    · exact absurd (hall c (by rw [hhead]; simp)) hlast.1
    · refine ⟨uri, v, heq, huri, hv.resolve_left fun hpart => ?_⟩
      have hend : (uri ++ 32 :: v).getLast? = some c := by
        rw [← heq, hhead]
        simp
      cases v with
      | nil =>
        rw [List.getLast?_concat] at hend
        exact hlast.2.2 (Option.some.inj hend).symm
      | cons b v =>
        have hmem : c ∈ b :: v := by
          rw [List.getLast?_append_of_ne_nil _ (List.cons_ne_nil _ _),
            List.getLast?_cons_cons] at hend
          exact List.mem_of_getLast? hend
        exact hlast.2.1 (hpart.subset hmem)
  · rintro ⟨uri, v, heq, huri, hv⟩
    exact .inr ⟨uri, v, heq, huri, .inr hv⟩

/-- A line of no served version is refused when its head is complete or will not fit. -/
theorem NamesNone.refused (hnone : NamesNone m line)
    (hdone : scanHeaders hs [] false ≠ none ∨ plainHttpPeek ≤ w.length) : Refused w m line hs := by
  cases hhead : scanHeaders hs [] false with
  | none => exact .inr (.inl ⟨hhead, hdone.resolve_left fun hne => hne hhead⟩)
  | some sawHost =>
    refine .inl ⟨sawHost, hhead, fun hserved => ?_⟩
    rcases hserved with ⟨h11, -⟩ | h10
    · rw [hnone.1] at h11
      cases h11
    · rw [hnone.2] at h10
      cases h10

/-- A peek that saw a part of the request gives the final answer. -/
theorem splitFree_of_safe (hlimit : w.length ≤ plainHttpPeek) (hsafe : PeekSafe w) :
    SplitFree w := by
  rintro p ⟨x, rfl⟩ hfinal
  by_cases hx : x = []
  · rw [hx, List.append_nil]
  have hlong : plainHttpMinPeek ≤ p.length :=
    not_lt.mp fun hlt => hfinal (isHttp_short hlt)
  have hroom : ¬ plainHttpPeek ≤ p.length := by
    have hpos := List.length_pos_of_ne_nil hx
    rw [List.length_append] at hlimit
    omega
  have hlong' : plainHttpMinPeek ≤ (p ++ x).length := by
    rw [List.length_append]
    omega
  have hwait : httpWait (decide (plainHttpPeek ≤ p.length)) = .again := by
    simp [httpWait, hroom]
  cases hstart : lineStart p with
  | again =>
    unfold isHttp at hfinal
    rw [if_neg (not_lt.mpr hlong), hstart] at hfinal
    exact absurd rfl hfinal
  | error => rw [isHttp_error hlong hstart, isHttp_error hlong' (lineStart_error_append hstart x)]
  | line na m r =>
    have hstart' := lineStart_line_append hstart x
    obtain ⟨-, hp, -⟩ := lineStart_line hstart
    cases hend : findLineEnd r with
    | some res =>
      obtain ⟨line, hs⟩ := res
      have hend' := findLineEnd_append hend x
      obtain ⟨hbare, hw, hpart, hwhole⟩ := isHttp_line hlong hstart hend
      by_cases hnil : hs = []
      · by_cases hnone : NamesNone m line
        · -- the line of another version was answered at once
          rw [hbare hnil hnone]
          refine ((isHttp_refused hlong' hstart' hend').mpr ?_).symm
          have hcrlf : crlf <:+ line := by
            cases findLineEnd_ends hend with
            | crlf l hline => exact hline ▸ List.suffix_append l _
            | lf l hline hne => exact absurd hnil hne
          have hline := findLineEnd_eq hend
          rw [hnil, List.append_nil] at hline
          have hmin : plainHttpMinPeek ≤ (m ++ 32 :: line).length := by
            rw [← hline, ← hp]
            exact hlong
          rcases (hsafe _ _ _ _ _ hstart' hend').2 hmin hcrlf hnone with hempty | hdone
          · exact absurd (List.append_eq_nil_iff.mp hempty).2 hx
          · exact hnone.refused hdone
        · rw [hw hnil hnone, hwait] at hfinal
          exact absurd rfl hfinal
      · cases hhead : scanHeaders hs [] false with
        | none =>
          rw [hpart hnil hhead, hwait] at hfinal
          exact absurd rfl hfinal
        | some sawHost =>
          -- the head is complete, and so is that of all the bytes
          obtain ⟨-, -, -, hwhole'⟩ := isHttp_line hlong' hstart' hend'
          have hhead' := scanHeaders_append hhead x
          by_cases hserved : NamesServed m line sawHost
          · rw [(hwhole sawHost hhead).1 hserved, (hwhole' sawHost hhead').1 hserved]
          · rw [(hwhole sawHost hhead).2 hserved, (hwhole' sawHost hhead').2 hserved]
    | none =>
      have hopen := isHttp_open hlong hstart hend
      by_cases hcont : Continues r
      · rw [hopen, openLine_continues _ hcont, hwait] at hfinal
        exact absurd rfl hfinal
      · rw [hopen, openLine_error _ hcont]
        cases hend' : findLineEnd (r ++ x) with
        | none =>
          rw [isHttp_open hlong' hstart' hend', openLine_error _ fun hc => hcont hc.of_append]
        | some res =>
          -- the line goes on, and what is wrong with its front stays
          obtain ⟨line, hs⟩ := res
          have hends := findLineEnd_ends hend'
          have hfront := prefix_lineHead hends (findLineEnd_eq hend') hend
          have hbad : ¬ IsVersioned (lineHead line) := fun hv => by
            obtain ⟨y, hy⟩ := hfront
            have hcont' := (continues_lineHead hends).mpr hv
            rw [← hy] at hcont'
            exact hcont hcont'.of_append
          have hmin : plainHttpMinPeek ≤ (m ++ 32 :: lineHead line).length := by
            have hle := hfront.length_le
            rw [hp, List.length_append, List.length_cons] at hlong
            rw [List.length_append, List.length_cons]
            omega
          exact ((isHttp_refused hlong' hstart' hend').mpr
            (((hsafe _ _ _ _ _ hstart' hend').1 hmin).resolve_left hbad)).symm

/-- What a peek may see of a request that is safe. -/
theorem safe_of_splitFree (hsplit : SplitFree w) : PeekSafe w := by
  intro na m r line hs hstart hend
  obtain ⟨-, hw, -⟩ := lineStart_line hstart
  have hr := findLineEnd_eq hend
  have hends := findLineEnd_ends hend
  obtain ⟨l, c, hhead, -, hfront, hopen⟩ := lineHead_ends hends
  refine ⟨fun hmin => ?_, fun hmin hcrlf hnone => ?_⟩
  · by_cases hv : IsVersioned (lineHead line)
    · exact .inl hv
    · right
      obtain ⟨y, hy⟩ := hfront
      have hpre : m ++ 32 :: lineHead line <+: w := by
        refine ⟨y ++ hs, ?_⟩
        rw [hw, hr, List.append_assoc, List.cons_append, ← List.append_assoc, hy]
      have hsame : (lineHead line).head? = r.head? := by
        have hrest : r = lineHead line ++ (y ++ hs) := by rw [hr, ← List.append_assoc, hy]
        rw [hrest, List.head?_append_of_ne_nil _ (by rw [hhead]; simp)]
      have hstart' := lineStart_rest hstart (.inr hsame)
      have herror : isHttp (m ++ 32 :: lineHead line) = .error := by
        rw [isHttp_open hmin hstart' hopen,
          openLine_error _ fun hc => hv ((continues_lineHead hends).mp hc)]
      have hall := hsplit _ hpre (by rw [herror]; nofun)
      exact (isHttp_refused (hmin.trans hpre.length_le) hstart hend).mp (hall ▸ herror)
  · have hpre : m ++ 32 :: line <+: w := by
      refine ⟨hs, ?_⟩
      rw [hw, hr, List.append_assoc, List.cons_append]
    have hwhole : findLineEnd line = some (line, []) := by
      cases hends with
      | crlf l hline hwhole => exact hwhole
      | lf l hline hne hnot => exact absurd hcrlf hnot
    have hsame : r = [] ∨ line.head? = r.head? := by
      right
      rw [hr]
      cases line with
      | nil => cases hwhole
      | cons b q => rfl
    have hstart' := lineStart_rest hstart hsame
    have herror := (isHttp_line hmin hstart' hwhole).1 rfl hnone
    have hall := hsplit _ hpre (by rw [herror]; nofun)
    rcases (isHttp_refused (hmin.trans hpre.length_le) hstart hend).mp (hall ▸ herror) with
      ⟨sawHost, hsome, -⟩ | ⟨-, hfull⟩ | ⟨hnil, -⟩
    · exact .inr (.inl (by rw [hsome]; nofun))
    · exact .inr (.inr hfull)
    · exact .inl hnil

/-- The answer to what a client sends does not depend on the peeks exactly when the request is
safe. -/
theorem splitFree_iff (hlimit : w.length ≤ plainHttpPeek) : SplitFree w ↔ PeekSafe w :=
  ⟨safe_of_splitFree, splitFree_of_safe hlimit⟩

/-- `GET / HTTP/1.0` and an empty line. -/
def httpSample : Bytes :=
  [71, 69, 84, 32, 47, 32, 72, 84, 84, 80, 47, 49, 46, 48, 13, 10, 13, 10]

theorem httpSample_safe : PeekSafe httpSample := by
  intro na m r line hs hstart hend
  have hstart' : lineStart httpSample =
      .line false [71, 69, 84] [47, 32, 72, 84, 84, 80, 47, 49, 46, 48, 13, 10, 13, 10] := by decide
  rw [hstart'] at hstart
  obtain ⟨-, rfl, rfl⟩ := LineStart.line.inj hstart
  have hend' : findLineEnd [47, 32, 72, 84, 84, 80, 47, 49, 46, 48, 13, 10, 13, 10] =
      some ([47, 32, 72, 84, 84, 80, 47, 49, 46, 48, 13, 10], [13, 10]) := by decide
  rw [hend'] at hend
  obtain ⟨rfl, rfl⟩ := Prod.mk.inj (Option.some.inj hend)
  refine ⟨fun _ => .inl ⟨[47], [72, 84, 84, 80, 47, 49, 46, 48, 13], by decide, ?_, by decide⟩,
    fun _ _ _ => .inr (.inl (by decide))⟩
  intro b hb
  rw [List.mem_singleton.mp hb]
  exact ⟨by decide, by decide⟩

theorem splitFree_sample : SplitFree httpSample := (splitFree_iff (by decide)).mpr httpSample_safe

/-- `GET /a b HTTP/1.0` and an empty line. -/
def httpSpace : Bytes :=
  [71, 69, 84, 32, 47, 97, 32, 98, 32, 72, 84, 84, 80, 47, 49, 46, 48, 13, 10, 13, 10]

/-- It has the 497 page, but the default one when a peek ends behind `b`. -/
theorem splitFree_space :
    isHttp httpSpace = .ok ∧ isHttp (httpSpace.take 8) = .error ∧ ¬ SplitFree httpSpace := by
  refine ⟨by decide, by decide, fun hsplit => ?_⟩
  have hall := hsplit _ (List.take_prefix 8 _) (by decide)
  revert hall
  decide

end NgxAnytls
