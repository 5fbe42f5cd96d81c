import NgxAnytls.PlainHttpSplit

/-! Which plain HTTP requests are answered with a page of their own. -/

namespace NgxAnytls

variable {w p m r line hs x : Bytes} {na : Bool}

/-- Header lines with their CRLF. -/
def headerBytes (headers : List Bytes) : Bytes := headers.flatMap (· ++ crlf)

/-- A request line behind its method: a URI, a space, a served version and a line end. -/
def IsRequestLine (line : Bytes) (sawHost : Prop) : Prop :=
  ∃ uri version eol, line = uri ++ 32 :: (version ++ eol) ∧ uri ≠ [] ∧ (∀ b ∈ uri, IsUriByte b) ∧
    (eol = crlf ∨ eol = [10]) ∧ (version = http10Text ∨ version = http11Text ∧ sawHost)

/-- A complete head with one of the methods: its request line, its header lines and an empty one;
HTTP/1.1 has a host. -/
def IsRequest (methods : List Bytes) (w : Bytes) : Prop :=
  ∃ method line headers body, w = method ++ 32 :: (line ++ (headerBytes headers ++ crlf ++ body)) ∧
    method ∈ methods ∧ IsRequestLine line (∃ h ∈ headers, isHost h = true) ∧
    ∀ h ∈ headers, h ≠ [] ∧ ¬ crlf <:+: h

/-- The requests for which the text of a version is only found where a version stands: a complete
head of a known method whose line has `HTTP/1.0` in it, or `HTTP/1.1` and a host, is one whose line
is a URI, a space and that version. -/
def PlainVersion (w : Bytes) : Prop :=
  ∀ na m r line hs sawHost, lineStart w = .line na m r → findLineEnd r = some (line, hs) →
    scanHeaders hs [] false = some sawHost → NamesServed m line sawHost →
    IsRequestLine line (sawHost = true)

/-- A header line is read up to its CRLF. -/
theorem scanHeaders_line {h : Bytes} (hh : ¬ crlf <:+: h) (rest acc : Bytes) (saw : Bool) :
    scanHeaders (h ++ (crlf ++ rest)) acc saw =
      if acc ++ h = [] then some saw else scanHeaders rest [] (saw || isHost (acc ++ h)) := by
  induction h generalizing acc with
  | nil =>
    rw [List.append_nil]
    rfl
  | cons a h ih =>
    have htail : ¬ crlf <:+: h := fun hi => hh (hi.trans (List.suffix_cons a h).isInfix)
    have hrest := ih htail (acc ++ [a])
    rw [List.append_assoc, List.singleton_append] at hrest
    have hstep : scanHeaders (a :: (h ++ (crlf ++ rest))) acc saw =
        scanHeaders (h ++ (crlf ++ rest)) (acc ++ [a]) saw := by
      cases h with
      | nil =>
        have hend : ¬ (a = 13 ∧ (13 : UInt8) = 10) := fun hb => absurd hb.2 (by decide)
        exact (scanHeaders.eq_1 ..).trans (if_neg hend)
      | cons b h =>
        have hend : ¬ (a = 13 ∧ b = 10) := by
          rintro ⟨rfl, rfl⟩
          exact hh ⟨[], h, rfl⟩
        exact (scanHeaders.eq_1 ..).trans (if_neg hend)
    rw [List.cons_append, hstep, hrest]

/-- A complete header has a first line end. -/
theorem scanHeaders_split {saw host : Bool} (h : scanHeaders p line saw = some host) :
    ∃ l rest, p = l ++ (crlf ++ rest) ∧ ¬ crlf <:+: l := by
  fun_induction scanHeaders p line saw with
  | case1 a b q saw hend =>
    obtain ⟨rfl, rfl⟩ := hend
    exact ⟨[], q, rfl, by decide⟩
  | case2 a b q line saw hend hline ih =>
    obtain ⟨rfl, rfl⟩ := hend
    exact ⟨[], q, rfl, by decide⟩
  | case3 a b q line saw hend ih =>
    obtain ⟨l, rest, heq, hl⟩ := ih h
    refine ⟨a :: l, rest, by rw [heq]; rfl, fun hi => ?_⟩
    rcases List.infix_cons_iff.mp hi with hpre | hin
    · cases l with
      | nil =>
        obtain ⟨t, ht⟩ := hpre
        cases (List.cons.inj ht).2
      | cons c l =>
        obtain ⟨t, ht⟩ := hpre
        obtain ⟨rfl, hrest⟩ := List.cons.inj ht
        obtain ⟨rfl, -⟩ := List.cons.inj hrest
        exact hend ⟨rfl, (List.cons.inj heq).1⟩
    · exact hl hin
  | case4 => cases h

/-- Header lines and the empty one are read. -/
theorem scanHeaders_headerBytes {headers : List Bytes}
    (hh : ∀ h ∈ headers, h ≠ [] ∧ ¬ crlf <:+: h) (body : Bytes) (saw : Bool) :
    scanHeaders (headerBytes headers ++ crlf ++ body) [] saw =
      some (saw || headers.any isHost) := by
  induction headers generalizing saw with
  | nil =>
    have hline := scanHeaders_line (h := []) (by decide) body [] saw
    rw [if_pos (List.append_nil [])] at hline
    rw [List.any_nil, Bool.or_false]
    exact hline
  | cons h headers ih =>
    obtain ⟨hne, hcrlf⟩ := hh h List.mem_cons_self
    have hline := scanHeaders_line hcrlf (headerBytes headers ++ crlf ++ body) [] saw
    have happ : headerBytes (h :: headers) ++ crlf ++ body =
        h ++ (crlf ++ (headerBytes headers ++ crlf ++ body)) := by
      simp [headerBytes]
    rw [happ, hline, List.nil_append, if_neg hne,
      ih (fun g hg => hh g (List.mem_cons_of_mem h hg)), List.any_cons, Bool.or_assoc]

/-- What is read as a complete header is one. -/
theorem exists_headers (n : Nat) (p : Bytes) (hn : p.length ≤ n) {saw host : Bool}
    (h : scanHeaders p [] saw = some host) :
    ∃ headers body, p = headerBytes headers ++ crlf ++ body ∧
      (∀ g ∈ headers, g ≠ [] ∧ ¬ crlf <:+: g) ∧ host = (saw || headers.any isHost) := by
  induction n generalizing p saw with
  | zero =>
    obtain rfl := List.eq_nil_of_length_eq_zero (Nat.le_zero.mp hn)
    cases h
  | succ n ih =>
    obtain ⟨l, rest, rfl, hl⟩ := scanHeaders_split h
    rw [scanHeaders_line hl, List.nil_append] at h
    by_cases hnil : l = []
    · rw [if_pos hnil] at h
      refine ⟨[], rest, by rw [hnil]; rfl, nofun, ?_⟩
      rw [List.any_nil, Bool.or_false]
      exact (Option.some.inj h).symm
    · rw [if_neg hnil] at h
      have hlen : rest.length ≤ n := by
        simp only [List.length_append, crlf, List.length_cons] at hn
        omega
      obtain ⟨headers, body, rfl, hall, hhost⟩ := ih rest hlen h
      refine ⟨l :: headers, body, by simp [headerBytes],
        List.forall_mem_cons.mpr ⟨⟨hnil, hl⟩, hall⟩,
        ?_⟩
      rw [hhost, List.any_cons, Bool.or_assoc]

/-- A byte that ends no line. -/
theorem findLineEnd_cons {a : UInt8} (ha : a ≠ 13 ∧ a ≠ 10) (h : findLineEnd p = some (line, hs)) :
    findLineEnd (a :: p) = some (a :: line, hs) := by
  cases p with
  | nil => cases h
  | cons b q =>
    rw [findLineEnd_step (fun hend => ha.1 hend.1) ha.2, h]
    rfl

private theorem findLineEnd_append_left {l : Bytes} (hl : ∀ b ∈ l, b ≠ 13 ∧ b ≠ 10)
    (h : findLineEnd p = some (line, hs)) : findLineEnd (l ++ p) = some (l ++ line, hs) := by
  induction l with
  | nil => exact h
  | cons a l ih =>
    exact findLineEnd_cons (hl a List.mem_cons_self)
      (ih fun b hb => hl b (List.mem_cons_of_mem a hb))

theorem IsUriByte.noEnd {b : UInt8} (hb : IsUriByte b) : b ≠ 13 ∧ b ≠ 10 := by
  constructor
  · rintro rfl
    exact hb.2 (.inl (by decide))
  · rintro rfl
    exact hb.2 (.inl (by decide))

/-- The line of a request is found where it ends. -/
theorem IsRequestLine.found {saw : Prop} (h : IsRequestLine line saw) (hne : hs ≠ []) :
    findLineEnd (line ++ hs) = some (line, hs) := by
  obtain ⟨uri, version, eol, rfl, -, huri, heol, hversion⟩ := h
  have hend : findLineEnd (eol ++ hs) = some (eol, hs) := by
    rcases heol with rfl | rfl
    · rfl
    · cases hs with
      | nil => exact absurd rfl hne
      | cons b q => rfl
  have hplain : ∀ b ∈ version, b ≠ 13 ∧ b ≠ 10 := by
    rcases hversion with rfl | ⟨rfl, -⟩ <;> decide +kernel
  have hvend := findLineEnd_append_left hplain hend
  have hspace := findLineEnd_cons (a := 32) (by decide) hvend
  have hall := findLineEnd_append_left (fun b hb => (huri b hb).noEnd) hspace
  rw [List.append_assoc, List.cons_append, List.append_assoc]
  exact hall

private theorem hasText_append_left {text : Bytes} (l : Bytes)
    (h : hasText text p = true) : hasText text (l ++ p) = true := by
  induction l with
  | nil => exact h
  | cons a l ih =>
    rw [List.cons_append, hasText, ih, Bool.or_true]

private theorem hasText_head {text : Bytes} (htext : text ≠ []) (x : Bytes) :
    hasText text (text ++ x) = true := by
  cases text with
  | nil => exact absurd rfl htext
  | cons a t =>
    rw [List.cons_append, hasText]
    have hpre : (a :: t).isPrefixOf (a :: (t ++ x)) = true := by
      rw [List.isPrefixOf_iff_prefix]
      exact List.prefix_append (a :: t) x
    rw [hpre, Bool.true_or]

private theorem hasText_length {text : Bytes} (h : hasText text p = true) :
    text.length ≤ p.length := by
  induction p with
  | nil => cases h
  | cons b q ih =>
    rw [hasText, Bool.or_eq_true] at h
    rcases h with hpre | hrest
    · exact (List.isPrefixOf_iff_prefix.mp hpre).length_le
    · exact (ih hrest).trans (Nat.le_succ _)

/-- The version of a request line is named by it. -/
theorem IsRequestLine.names {saw : Bool} (h : IsRequestLine line (saw = true)) :
    NamesServed m line saw := by
  obtain ⟨uri, version, eol, rfl, -, -, -, hversion⟩ := h
  have happ : ∀ v : Bytes, m ++ 32 :: (uri ++ 32 :: (v ++ eol)) =
      (m ++ 32 :: (uri ++ [32])) ++ (v ++ eol) := fun v => by simp
  rcases hversion with rfl | ⟨rfl, hsaw⟩
  · right
    rw [happ]
    exact hasText_append_left _ (hasText_head (by decide) _)
  · refine .inl ⟨?_, hsaw⟩
    rw [happ]
    exact hasText_append_left _ (hasText_head (by decide) _)

/-- A line that names a version is long enough to be answered. -/
theorem NamesServed.length {saw : Bool} (h : NamesServed m line saw) :
    plainHttpMinPeek ≤ (m ++ 32 :: line).length := by
  have hlen : plainHttpMinPeek ≤ 8 := by decide
  rcases h with ⟨h11, -⟩ | h10
  · exact hlen.trans (hasText_length h11)
  · exact hlen.trans (hasText_length h10)

private theorem scanMethod_letters (hm : ∀ b ∈ m, ¬ (b.toNat < 65 ∨ 90 < b.toNat)) (r : Bytes) :
    scanMethod (m ++ 32 :: r) = .found m r := by
  induction m with
  | nil => rfl
  | cons b m ih =>
    have hb := hm b List.mem_cons_self
    have hspace : b ≠ 32 := by
      rintro rfl
      exact hb (.inl (by decide))
    rw [List.cons_append, scanMethod, if_neg hspace, if_neg hb,
      ih fun c hc => hm c (List.mem_cons_of_mem b hc)]

private theorem httpMethods_letters :
    ∀ m ∈ httpMethods, m.length ≤ 12 ∧ ∀ b ∈ m, ¬ (b.toNat < 65 ∨ 90 < b.toNat) := by
  decide +kernel

private theorem httpNotAllowed_letters :
    ∀ m ∈ httpNotAllowed, m.length ≤ 12 ∧ m ∉ httpMethods ∧
      ∀ b ∈ m, ¬ (b.toNat < 65 ∨ 90 < b.toNat) := by
  decide +kernel

/-- A request line of a served method, and of one that is not allowed. -/
theorem lineStart_method (hm : m ∈ httpMethods) {b : UInt8} (hb : IsUriByte b) (q : Bytes) :
    lineStart (m ++ 32 :: b :: q) = .line false m (b :: q) := by
  obtain ⟨hshort, hletters⟩ := httpMethods_letters m hm
  unfold lineStart
  rw [scanMethod_letters hletters]
  unfold checkMethod
  dsimp only
  rw [if_neg (not_lt.mpr hshort), if_pos hm]
  exact if_neg fun hor => hor.elim hb.1 fun hor => hor.elim hb.noEnd.1 hb.noEnd.2

private theorem lineStart_notAllowed (hm : m ∈ httpNotAllowed) (r : Bytes) :
    lineStart (m ++ 32 :: r) = .line true m r := by
  obtain ⟨hshort, hother, hletters⟩ := httpNotAllowed_letters m hm
  unfold lineStart
  rw [scanMethod_letters hletters]
  unfold checkMethod
  dsimp only
  rw [if_neg (not_lt.mpr hshort), if_neg hother, if_pos hm]

private theorem lineStart_mem (h : lineStart p = .line na m r) :
    m ∈ if na then httpNotAllowed else httpMethods := by
  have hcheck := (lineStart_line h).2.2
  unfold checkMethod at hcheck
  split_ifs at hcheck with hlong hlisted hrefused
  · cases r with
    | nil => cases hcheck
    | cons b q =>
      dsimp only at hcheck
      split_ifs at hcheck
      obtain ⟨rfl, -⟩ := LineStart.line.inj hcheck
      exact hlisted
  · obtain ⟨rfl, -⟩ := LineStart.line.inj hcheck
    exact hrefused

/-- What is read of a request. -/
theorem IsRequest.parts {methods : List Bytes} (h : IsRequest methods w)
    (hmethods : methods = if na then httpNotAllowed else httpMethods) :
    ∃ m line hs sawHost, lineStart w = .line na m (line ++ hs) ∧
      findLineEnd (line ++ hs) = some (line, hs) ∧ scanHeaders hs [] false = some sawHost ∧
      IsRequestLine line (sawHost = true) := by
  obtain ⟨method, line, headers, body, rfl, hm, hline, hheaders⟩ := h
  have hhost : (∃ g ∈ headers, isHost g = true) ↔ headers.any isHost = true :=
    List.any_eq_true.symm
  rw [hhost] at hline
  have hne : headerBytes headers ++ crlf ++ body ≠ [] := by simp [crlf]
  have hscan := scanHeaders_headerBytes hheaders body false
  rw [Bool.false_or] at hscan
  refine ⟨method, line, _, _, ?_, hline.found hne, hscan, hline⟩
  rw [hmethods] at hm
  cases na with
  | true => exact lineStart_notAllowed hm _
  | false =>
    obtain ⟨uri, version, eol, rfl, huri, hbytes, -⟩ := hline
    cases uri with
    | nil => exact absurd rfl huri
    | cons b uri => exact lineStart_method hm (hbytes b List.mem_cons_self) _

/-- A complete head that names a served version is answered. -/
theorem isHttp_served {sawHost : Bool} (hstart : lineStart w = .line na m r)
    (hend : findLineEnd r = some (line, hs)) (hhead : scanHeaders hs [] false = some sawHost)
    (hnames : NamesServed m line sawHost) : isHttp w = if na then .busy else .ok := by
  have hlen : plainHttpMinPeek ≤ w.length := by
    refine hnames.length.trans ?_
    rw [(lineStart_line hstart).2.1, findLineEnd_eq hend]
    simp only [List.length_append, List.length_cons]
    omega
  exact ((isHttp_line hlen hstart hend).2.2.2 sawHost hhead).1 hnames

/-- And nothing else is. -/
theorem isHttp_answered (h : isHttp w = .ok ∨ isHttp w = .busy) :
    ∃ na m r line hs sawHost, lineStart w = .line na m r ∧ findLineEnd r = some (line, hs) ∧
      scanHeaders hs [] false = some sawHost ∧ NamesServed m line sawHost := by
  have hnot : ∀ rc, isHttp w = rc → rc ≠ .again ∧ rc ≠ .error := by
    rintro rc hrc
    rw [hrc] at h
    rcases h with rfl | rfl <;> exact ⟨nofun, nofun⟩
  have hwait : ∀ full, isHttp w ≠ httpWait full := fun full hw => by
    cases full
    · exact (hnot _ hw).1 rfl
    · exact (hnot _ hw).2 rfl
  have hlen : plainHttpMinPeek ≤ w.length :=
    not_lt.mp fun hlt => (hnot _ (isHttp_short hlt)).1 rfl
  cases hstart : lineStart w with
  | again =>
    refine absurd ?_ (hnot _ rfl).1
    unfold isHttp
    rw [if_neg (not_lt.mpr hlen), hstart]
  | error => exact absurd (isHttp_error hlen hstart) (hnot _ rfl).2
  | line na m r =>
    cases hend : findLineEnd r with
    | none =>
      have hopen := isHttp_open hlen hstart hend
      by_cases hc : Continues r
      · rw [openLine_continues _ hc] at hopen
        exact absurd hopen (hwait _)
      · rw [openLine_error _ hc] at hopen
        exact absurd hopen (hnot _ rfl).2
    | some res =>
      obtain ⟨line, hs⟩ := res
      obtain ⟨hbare, hw, hpart, hwhole⟩ := isHttp_line hlen hstart hend
      cases hhead : scanHeaders hs [] false with
      | none =>
        by_cases hnil : hs = []
        · by_cases hnone : NamesNone m line
          · exact absurd (hbare hnil hnone) (hnot _ rfl).2
          · exact absurd (hw hnil hnone) (hwait _)
        · exact absurd (hpart hnil hhead) (hwait _)
      | some sawHost =>
        by_cases hnames : NamesServed m line sawHost
        · exact ⟨na, m, r, line, hs, sawHost, rfl, hend, hhead, hnames⟩
        · exact absurd ((hwhole sawHost hhead).2 hnames) (hnot _ rfl).2

/-- The pages answer the documented requests exactly when versions are only named where they
stand. -/
theorem isHttp_iff (w : Bytes) :
    ((isHttp w = .ok ↔ IsRequest httpMethods w) ∧ (isHttp w = .busy ↔ IsRequest httpNotAllowed w)) ↔
      PlainVersion w := by
  constructor
  · rintro ⟨hok, hbusy⟩ na m r line hs sawHost hstart hend hhead hnames
    have hserved := isHttp_served hstart hend hhead hnames
    have hrequest : IsRequest (if na then httpNotAllowed else httpMethods) w := by
      cases na with
      | true => exact hbusy.mp hserved
      | false => exact hok.mp hserved
    obtain ⟨m', line', hs', saw', hstart', hend', hhead', hline'⟩ := hrequest.parts rfl
    rw [hstart] at hstart'
    obtain ⟨-, -, rfl⟩ := LineStart.line.inj hstart'
    rw [hend] at hend'
    obtain ⟨rfl, rfl⟩ := Prod.mk.inj (Option.some.inj hend')
    rw [hhead] at hhead'
    obtain rfl := Option.some.inj hhead'
    exact hline'
  · intro hplain
    have hdone : ∀ na : Bool, IsRequest (if na then httpNotAllowed else httpMethods) w →
        isHttp w = if na then .busy else .ok := fun na hrequest => by
      obtain ⟨m, line, hs, sawHost, hstart, hend, hhead, hline⟩ := hrequest.parts rfl
      exact isHttp_served hstart hend hhead hline.names
    have hback : ∀ rc, (rc = .ok ∨ rc = .busy) → isHttp w = rc →
        ∃ na : Bool, rc = (if na then .busy else .ok) ∧
          IsRequest (if na then httpNotAllowed else httpMethods) w := fun rc hrc hw => by
      obtain ⟨na, m, r, line, hs, sawHost, hstart, hend, hhead, hnames⟩ :=
        isHttp_answered (hw ▸ hrc)
      refine ⟨na, hw.symm.trans (isHttp_served hstart hend hhead hnames), ?_⟩
      obtain ⟨headers, body, hhs, hheaders, hhost⟩ := exists_headers _ hs le_rfl hhead
      have hline := hplain na m r line hs sawHost hstart hend hhead hnames
      refine ⟨m, line, headers, body, ?_, lineStart_mem hstart, ?_, hheaders⟩
      · rw [(lineStart_line hstart).2.1, findLineEnd_eq hend, hhs]
      · rw [Bool.false_or] at hhost
        have hany : (∃ g ∈ headers, isHost g = true) ↔ sawHost = true := by
          rw [hhost, List.any_eq_true]
        rw [hany]
        exact hline
    refine ⟨⟨fun hok => ?_, hdone false⟩, ⟨fun hbusy => ?_, hdone true⟩⟩
    · obtain ⟨na, hna, hrequest⟩ := hback .ok (.inl rfl) hok
      cases na with
      | false => exact hrequest
      | true => cases hna
    · obtain ⟨na, hna, hrequest⟩ := hback .busy (.inr rfl) hbusy
      cases na with
      | false => cases hna
      | true => exact hrequest

/-- `GET /HTTP/1.0` and an empty line. -/
def httpNoVersion : Bytes :=
  [71, 69, 84, 32, 47, 72, 84, 84, 80, 47, 49, 46, 48, 13, 10, 13, 10]

/-- A request line without a version has the 497 page when its URI has the text of one. -/
theorem isHttp_noVersion : isHttp httpNoVersion = .ok ∧ ¬ IsRequest httpMethods httpNoVersion := by
  refine ⟨by decide, fun hrequest => ?_⟩
  obtain ⟨m, line, hs, sawHost, hstart, -, -, hline⟩ :=
    hrequest.parts (show httpMethods = if false then httpNotAllowed else httpMethods from rfl)
  have hstart' : lineStart httpNoVersion = .line false [71, 69, 84]
      [47, 72, 84, 84, 80, 47, 49, 46, 48, 13, 10, 13, 10] := by decide
  rw [hstart'] at hstart
  obtain ⟨-, -, hrest⟩ := LineStart.line.inj hstart
  obtain ⟨uri, version, eol, rfl, -⟩ := hline
  have hspace : (32 : UInt8) ∈ [47, 72, 84, 84, 80, 47, 49, 46, 48, 13, 10, 13, 10] := by
    rw [hrest]
    simp
  revert hspace
  decide

end NgxAnytls
