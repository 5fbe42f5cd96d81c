import NgxAnytls.Bytes

/-! Plain HTTP on a TLS port (`ngx_anytls_reject_plain_http.c`): what the peeked bytes are taken
for. -/

namespace NgxAnytls

/-- `NGX_ANYTLS_REJECT_PLAIN_HTTP_PEEK` and `NGX_ANYTLS_REJECT_PLAIN_HTTP_MIN_PEEK`. -/
def plainHttpPeek : Nat := 32768
def plainHttpMinPeek : Nat := 7

/-- `NGX_OK` is the 497 page, `NGX_BUSY` 405, `NGX_ERROR` the default 400, and `NGX_AGAIN` no answer
yet. -/
inductive HttpRc where
  | ok | busy | error | again
  deriving DecidableEq, Repr

/-- `GET`, `POST`, `PUT`, `DELETE`, `OPTIONS` and `PATCH`. -/
def httpMethods : List Bytes :=
  [[71, 69, 84], [80, 79, 83, 84], [80, 85, 84], [68, 69, 76, 69, 84, 69],
   [79, 80, 84, 73, 79, 78, 83], [80, 65, 84, 67, 72]]

/-- `CONNECT` and `TRACE`. -/
def httpNotAllowed : List Bytes := [[67, 79, 78, 78, 69, 67, 84], [84, 82, 65, 67, 69]]

/-- `HTTP/`, `HTTP/1.1` and `HTTP/1.0`. -/
def httpSlash : Bytes := [72, 84, 84, 80, 47]
def http11Text : Bytes := [72, 84, 84, 80, 47, 49, 46, 49]
def http10Text : Bytes := [72, 84, 84, 80, 47, 49, 46, 48]

def crlf : Bytes := [13, 10]

/-- What the bytes start with: a method and the bytes behind its space, or neither that nor a part
of it. -/
inductive MethodScan where
  | again
  | error
  | found (method rest : Bytes)
  deriving DecidableEq, Repr

/-- The letters up to the first space. -/
def scanMethod : Bytes → MethodScan
  | [] => .again
  | b :: p =>
    if b = 32 then .found [] p
    else if b.toNat < 65 ∨ 90 < b.toNat then .error
    else
      match scanMethod p with
      | .found method rest => .found (b :: method) rest
      | r => r

/-- A request line whose method is answered, and whether it is one that is not allowed. -/
inductive LineStart where
  | again
  | error
  | line (notAllowed : Bool) (method rest : Bytes)
  deriving DecidableEq, Repr

/-- The checks of the method and of the first byte of the URI. -/
def checkMethod (method rest : Bytes) : LineStart :=
  if 12 < method.length then .error
  else if method ∈ httpMethods then
    match rest with
    | [] => .again
    | b :: _ => if b = 32 ∨ b = 13 ∨ b = 10 then .error else .line false method rest
  else if method ∈ httpNotAllowed then .line true method rest
  else .error

def lineStart (p : Bytes) : LineStart :=
  match scanMethod p with
  | .again => .again
  | .error => .error
  | .found method rest => checkMethod method rest

/-- The end of the request line: the line with its CRLF or LF, and what is behind it. An LF in the
last place is not looked at. -/
def findLineEnd : Bytes → Option (Bytes × Bytes)
  | a :: b :: q =>
    if a = 13 ∧ b = 10 then some ([a, b], q)
    else if a = 10 then some ([a], b :: q)
    else (findLineEnd (b :: q)).map fun r => (a :: r.1, r.2)
  | _ => none

/-- More bytes are waited for unless the peek buffer is full. -/
def httpWait (full : Bool) : HttpRc := if full then .error else .again

/-- How many bytes of `HTTP/` the bytes start with. -/
def matchLen : Bytes → Bytes → Nat
  | t :: ts, b :: bs => if t = b then matchLen ts bs + 1 else 0
  | _, _ => 0

/-- The version of a request line that did not end yet. -/
def openVersion (full : Bool) (v : Bytes) : HttpRc :=
  if v = [] then httpWait full
  else if matchLen httpSlash v = v.length ∧ v.length < 5 then httpWait full
  else if matchLen httpSlash v = 5 then httpWait full
  else .error

/-- A request line that did not end yet, behind the method. -/
def openLine (full : Bool) : Bytes → HttpRc
  | [] => httpWait full
  | b :: q =>
    if b = 32 then openVersion full q
    else if b.toNat ≤ 31 ∨ b.toNat = 127 then .error
    else openLine full q

/-- The text stands somewhere in the bytes. -/
def hasText (text : Bytes) : Bytes → Bool
  | [] => false
  | b :: q => text.isPrefixOf (b :: q) || hasText text q

/-- `Host:`, in any case. -/
def isHost (line : Bytes) : Bool :=
  match line with
  | h :: o :: s :: t :: c :: _ =>
    (h = 72 || h = 104) && (o = 79 || o = 111) && (s = 83 || s = 115) &&
    (t = 84 || t = 116) && c = 58
  | _ => false

/-- The lines up to the empty one: whether one of them was the host. -/
def scanHeaders : Bytes → Bytes → Bool → Option Bool
  | a :: b :: q, line, sawHost =>
    if a = 13 ∧ b = 10 then
      if line = [] then some sawHost else scanHeaders q [] (sawHost || isHost line)
    else scanHeaders (b :: q) (line ++ [a]) sawHost
  | _, _, _ => none

/-- `ngx_anytls_reject_plain_http_is_http`. -/
def isHttp (p : Bytes) : HttpRc :=
  if p.length < plainHttpMinPeek then .again
  else
    match lineStart p with
    | .again => .again
    | .error => .error
    | .line notAllowed method rest =>
      let full := plainHttpPeek ≤ p.length
      match findLineEnd rest with
      | none => openLine full rest
      | some (line, headers) =>
        let http11 := hasText http11Text (method ++ 32 :: line)
        let http10 := hasText http10Text (method ++ 32 :: line)
        if headers = [] then if !http11 && !http10 then .error else httpWait full
        else
          match scanHeaders headers [] false with
          | none => httpWait full
          | some sawHost =>
            if (http11 && sawHost) || http10 then if notAllowed then .busy else .ok else .error

variable {p q m r line hs : Bytes}

private theorem scanMethod_found (h : scanMethod p = .found m r) : p = m ++ 32 :: r := by
  induction p generalizing m r with
  | nil => cases h
  | cons b p ih =>
    unfold scanMethod at h
    split_ifs at h with hspace hletter
    · obtain ⟨rfl, rfl⟩ := MethodScan.found.inj h
      rw [hspace]
      rfl
    · cases hp : scanMethod p with
      | again => rw [hp] at h; cases h
      | error => rw [hp] at h; cases h
      | found m' r' =>
        rw [hp] at h
        obtain ⟨rfl, rfl⟩ := MethodScan.found.inj h
        rw [ih hp]
        rfl

private theorem scanMethod_found_append (h : scanMethod p = .found m r) (x : Bytes) :
    scanMethod (p ++ x) = .found m (r ++ x) := by
  induction p generalizing m r with
  | nil => cases h
  | cons b p ih =>
    rw [List.cons_append]
    unfold scanMethod at h ⊢
    split_ifs at h ⊢ with hspace hletter
    · obtain ⟨rfl, rfl⟩ := MethodScan.found.inj h
      rfl
    · cases hp : scanMethod p with
      | again => rw [hp] at h; cases h
      | error => rw [hp] at h; cases h
      | found m' r' =>
        rw [hp] at h
        obtain ⟨rfl, rfl⟩ := MethodScan.found.inj h
        rw [ih hp]

private theorem scanMethod_error_append (h : scanMethod p = .error) (x : Bytes) :
    scanMethod (p ++ x) = .error := by
  induction p with
  | nil => cases h
  | cons b p ih =>
    rw [List.cons_append]
    unfold scanMethod at h ⊢
    split_ifs at h ⊢ with hspace hletter
    · rfl
    · cases hp : scanMethod p with
      | again => rw [hp] at h; cases h
      | found m' r' => rw [hp] at h; cases h
      | error => rw [ih hp]

/-- The method is read however few bytes follow its space. -/
theorem scanMethod_rest (h : scanMethod (m ++ 32 :: r) = .found m r) (x : Bytes) :
    scanMethod (m ++ 32 :: x) = .found m x := by
  induction m with
  | nil => rfl
  | cons b m ih =>
    rw [List.cons_append] at h ⊢
    unfold scanMethod at h ⊢
    split_ifs at h ⊢ with hspace hletter
    · cases h
    · cases hp : scanMethod (m ++ 32 :: r) with
      | again => rw [hp] at h; cases h
      | error => rw [hp] at h; cases h
      | found m' r' =>
        rw [hp] at h
        obtain ⟨hcons, rfl⟩ := MethodScan.found.inj h
        obtain rfl := (List.cons.inj hcons).2
        rw [ih hp]

/-- The check looks at no more than one byte behind the method. -/
theorem checkMethod_rest {na : Bool} {m' r' : Bytes} (h : checkMethod m r = .line na m' r')
    {x : Bytes} (hx : r = [] ∨ x.head? = r.head?) :
    m' = m ∧ r' = r ∧ checkMethod m x = .line na m x := by
  unfold checkMethod at h ⊢
  split_ifs at h ⊢ with hlong hlisted hrefused
  · cases r with
    | nil => cases h
    | cons b q =>
      dsimp only at h
      split_ifs at h with hb
      obtain ⟨rfl, rfl, rfl⟩ := LineStart.line.inj h
      have hhead := hx.resolve_left (List.cons_ne_nil _ _)
      cases x with
      | nil => cases hhead
      | cons b' q' =>
        obtain rfl : b' = b := Option.some.inj hhead
        exact ⟨rfl, rfl, if_neg hb⟩
  · obtain ⟨rfl, rfl, rfl⟩ := LineStart.line.inj h
    exact ⟨rfl, rfl, rfl⟩

private theorem checkMethod_error_append (h : checkMethod m r = .error) (x : Bytes) :
    checkMethod m (r ++ x) = .error := by
  unfold checkMethod at h ⊢
  split_ifs at h ⊢
  · rfl
  · cases r with
    | nil => cases h
    | cons b q =>
      rw [List.cons_append]
      dsimp only at h ⊢
      split_ifs at h ⊢
      rfl
  · rfl

theorem lineStart_line {na : Bool} (h : lineStart p = .line na m r) :
    scanMethod p = .found m r ∧ p = m ++ 32 :: r ∧ checkMethod m r = .line na m r := by
  unfold lineStart at h
  cases hp : scanMethod p with
  | again => rw [hp] at h; cases h
  | error => rw [hp] at h; cases h
  | found m' r' =>
    rw [hp] at h
    obtain ⟨rfl, rfl, hcheck⟩ := checkMethod_rest h (.inr rfl)
    exact ⟨rfl, scanMethod_found hp, hcheck⟩

/-- Other bytes behind the method, with the same first one. -/
theorem lineStart_rest {na : Bool} (h : lineStart p = .line na m r) {x : Bytes}
    (hx : r = [] ∨ x.head? = r.head?) : lineStart (m ++ 32 :: x) = .line na m x := by
  obtain ⟨hscan, rfl, hcheck⟩ := lineStart_line h
  unfold lineStart
  rw [scanMethod_rest hscan x]
  exact (checkMethod_rest hcheck hx).2.2

theorem lineStart_line_append {na : Bool} (h : lineStart p = .line na m r) (x : Bytes) :
    lineStart (p ++ x) = .line na m (r ++ x) := by
  have hhead : r = [] ∨ (r ++ x).head? = r.head? := by
    cases r with
    | nil => exact .inl rfl
    | cons b q => exact .inr rfl
  have hrest := lineStart_rest h hhead
  rw [(lineStart_line h).2.1, List.append_assoc]
  exact hrest

theorem lineStart_error_append (h : lineStart p = .error) (x : Bytes) :
    lineStart (p ++ x) = .error := by
  unfold lineStart at h ⊢
  cases hp : scanMethod p with
  | again => rw [hp] at h; cases h
  | error => rw [scanMethod_error_append hp x]
  | found m r =>
    rw [hp] at h
    rw [scanMethod_found_append hp x]
    exact checkMethod_error_append h x

theorem findLineEnd_append (h : findLineEnd p = some (line, hs)) (x : Bytes) :
    findLineEnd (p ++ x) = some (line, hs ++ x) := by
  induction p generalizing line hs with
  | nil => cases h
  | cons a p ih =>
    cases p with
    | nil => cases h
    | cons b q =>
      simp only [List.cons_append]
      unfold findLineEnd at h ⊢
      split_ifs at h ⊢
      · obtain ⟨rfl, rfl⟩ := Prod.mk.inj (Option.some.inj h)
        rfl
      · obtain ⟨rfl, rfl⟩ := Prod.mk.inj (Option.some.inj h)
        rfl
      · obtain ⟨⟨l, hs'⟩, hrest, heq⟩ := Option.map_eq_some_iff.mp h
        obtain ⟨rfl, rfl⟩ := Prod.mk.inj heq
        have happ := ih hrest
        rw [List.cons_append] at happ
        rw [happ]
        rfl

theorem findLineEnd_eq (h : findLineEnd p = some (line, hs)) : p = line ++ hs := by
  induction p generalizing line hs with
  | nil => cases h
  | cons a p ih =>
    cases p with
    | nil => cases h
    | cons b q =>
      unfold findLineEnd at h
      split_ifs at h
      · obtain ⟨rfl, rfl⟩ := Prod.mk.inj (Option.some.inj h)
        rfl
      · obtain ⟨rfl, rfl⟩ := Prod.mk.inj (Option.some.inj h)
        rfl
      · obtain ⟨⟨l, hs'⟩, hrest, heq⟩ := Option.map_eq_some_iff.mp h
        obtain ⟨rfl, rfl⟩ := Prod.mk.inj heq
        rw [ih hrest]
        rfl

theorem scanHeaders_append {saw host : Bool} (h : scanHeaders p line saw = some host) (x : Bytes) :
    scanHeaders (p ++ x) line saw = some host := by
  fun_induction scanHeaders p line saw with
  | case1 a b q saw hend =>
    simp only [List.cons_append]
    unfold scanHeaders
    rw [if_pos hend, if_pos rfl]
    exact h
  | case2 a b q line saw hend hline ih =>
    simp only [List.cons_append]
    unfold scanHeaders
    rw [if_pos hend, if_neg hline]
    exact ih h
  | case3 a b q line saw hend ih =>
    have hnext := ih h
    simp only [List.cons_append] at hnext ⊢
    unfold scanHeaders
    rw [if_neg hend]
    exact hnext
  | case4 => cases h

/-- All of a text is matched by bytes that start with it. -/
theorem matchLen_eq (t v : Bytes) : matchLen t v = t.length ↔ t <+: v := by
  induction t generalizing v with
  | nil => simp [matchLen]
  | cons a t ih =>
    cases v with
    | nil => simp [matchLen]
    | cons b v =>
      unfold matchLen
      rw [List.cons_prefix_cons]
      split_ifs with hab
      · rw [List.length_cons, Nat.succ_inj, ih v]
        exact ⟨fun h => ⟨hab, h⟩, fun h => h.2⟩
      · constructor
        · exact nofun
        · exact fun h => absurd h.1 hab

/-- Bytes that are all matched are a part of the text. -/
theorem matchLen_part (t v : Bytes) : matchLen t v = v.length ↔ v <+: t := by
  induction t generalizing v with
  | nil =>
    cases v with
    | nil => simp [matchLen]
    | cons b v => simp [matchLen]
  | cons a t ih =>
    cases v with
    | nil => simp [matchLen]
    | cons b v =>
      unfold matchLen
      rw [List.cons_prefix_cons]
      split_ifs with hab
      · rw [List.length_cons, Nat.succ_inj, ih v]
        exact ⟨fun h => ⟨hab.symm, h⟩, fun h => h.2⟩
      · constructor
        · exact nofun
        · exact fun h => absurd h.1.symm hab

/-- A version may still become one that starts with `HTTP/`. -/
theorem openVersion_eq (full : Bool) (v : Bytes) :
    openVersion full v = if v <+: httpSlash ∨ httpSlash <+: v then httpWait full else .error := by
  have hall := matchLen_eq httpSlash v
  have hpart := matchLen_part httpSlash v
  have hlen : httpSlash.length = 5 := rfl
  rw [hlen] at hall
  unfold openVersion
  by_cases hnil : v = []
  · rw [if_pos hnil, hnil, if_pos (.inl List.nil_prefix)]
  rw [if_neg hnil]
  by_cases hfull : httpSlash <+: v
  · rw [if_pos (hall.mpr hfull), ite_self, if_pos (.inr hfull)]
  · rw [if_neg (fun h => hfull (hall.mp h))]
    by_cases hfront : v <+: httpSlash
    · have hle := hfront.length_le
      have hlt : v.length < 5 := by
        refine lt_of_le_of_ne hle fun heq => hfull ?_
        rw [hfront.eq_of_length (by rw [heq, hlen])]
      rw [if_pos ⟨hpart.mpr hfront, hlt⟩, if_pos (.inl hfront)]
    · rw [if_neg (fun h => hfront (hpart.mp h.1)), if_neg (fun h => h.elim hfront hfull)]

/-- A byte that a URI may have. -/
def IsUriByte (b : UInt8) : Prop := b ≠ 32 ∧ ¬ (b.toNat ≤ 31 ∨ b.toNat = 127)

/-- The front of a request line that is waited for: a part of the URI, or the URI and a version that
may still start with `HTTP/`. -/
def Continues (q : Bytes) : Prop :=
  (∀ b ∈ q, IsUriByte b) ∨ ∃ uri v, q = uri ++ 32 :: v ∧ (∀ b ∈ uri, IsUriByte b) ∧
    (v <+: httpSlash ∨ httpSlash <+: v)

theorem openLine_continues (full : Bool) (h : Continues q) : openLine full q = httpWait full := by
  induction q with
  | nil => rfl
  | cons b q ih =>
    unfold openLine
    rcases h with hall | ⟨uri, v, heq, huri, hv⟩
    · obtain ⟨hspace, hcontrol⟩ := hall b List.mem_cons_self
      rw [if_neg hspace, if_neg hcontrol]
      exact ih (.inl fun c hc => hall c (List.mem_cons_of_mem b hc))
    · cases uri with
      | nil =>
        obtain ⟨rfl, rfl⟩ := List.cons.inj heq
        rw [if_pos rfl, openVersion_eq, if_pos hv]
      | cons c uri =>
        obtain ⟨rfl, rfl⟩ := List.cons.inj heq
        obtain ⟨hspace, hcontrol⟩ := huri b List.mem_cons_self
        rw [if_neg hspace, if_neg hcontrol]
        exact ih (.inr ⟨uri, v, rfl, fun d hd => huri d (List.mem_cons_of_mem b hd), hv⟩)

theorem openLine_error (full : Bool) (h : ¬ Continues q) : openLine full q = .error := by
  induction q with
  | nil => exact absurd (.inl nofun) h
  | cons b q ih =>
    unfold openLine
    split_ifs with hspace hcontrol
    · rw [openVersion_eq, if_neg]
      exact fun hv => h (.inr ⟨[], q, by rw [hspace]; rfl, nofun, hv⟩)
    · rfl
    · refine ih fun hq => h ?_
      rcases hq with hall | ⟨uri, v, rfl, huri, hv⟩
      · exact .inl (List.forall_mem_cons.mpr ⟨⟨hspace, hcontrol⟩, hall⟩)
      · exact .inr ⟨b :: uri, v, rfl, List.forall_mem_cons.mpr ⟨⟨hspace, hcontrol⟩, huri⟩, hv⟩

/-- A line that is waited for was waited for before. -/
theorem Continues.of_append {x : Bytes} (h : Continues (q ++ x)) : Continues q := by
  rcases h with hall | ⟨uri, v, heq, huri, hv⟩
  · exact .inl fun b hb => hall b (List.mem_append_left x hb)
  · rcases List.append_eq_append_iff.mp heq with ⟨t, ht, -⟩ | ⟨t, ht, hrest⟩
    · exact .inl fun b hb => huri b (ht ▸ List.mem_append_left t hb)
    · cases t with
      | nil =>
        rw [List.append_nil] at ht
        exact .inl fun b hb => huri b (ht ▸ hb)
      | cons c t =>
        obtain ⟨rfl, hfront⟩ := List.cons.inj hrest
        have hpre : t <+: v := ⟨x, hfront.symm⟩
        refine .inr ⟨uri, t, ht, huri, ?_⟩
        rcases hv with hpart | hall
        · exact .inl (hpre.trans hpart)
        · exact List.prefix_or_prefix_of_prefix hpre hall

/-- The request line up to the first byte of its end. -/
def lineHead (line : Bytes) : Bytes := if crlf <:+ line then line.dropLast else line

/-- How a request line ends. -/
inductive LineEnds (line : Bytes) (hs : Bytes) : Prop
  | crlf (l : Bytes) (hline : line = l ++ crlf) (hwhole : findLineEnd line = some (line, []))
      (hopen : findLineEnd (l ++ [13]) = none)
  | lf (l : Bytes) (hline : line = l ++ [10]) (hs : hs ≠ []) (hcrlf : ¬ NgxAnytls.crlf <:+ line)
      (hwhole : ∀ b q, findLineEnd (line ++ b :: q) = some (line, b :: q))
      (hopen : findLineEnd line = none)

theorem findLineEnd_step {a b : UInt8} (hend : ¬ (a = 13 ∧ b = 10)) (ha : a ≠ 10) (q : Bytes) :
    findLineEnd (a :: b :: q) = (findLineEnd (b :: q)).map fun r => (a :: r.1, r.2) := by
  rw [findLineEnd, if_neg hend, if_neg ha]

theorem findLineEnd_ends (h : findLineEnd p = some (line, hs)) : LineEnds line hs := by
  induction p generalizing line hs with
  | nil => cases h
  | cons a p ih =>
    cases p with
    | nil => cases h
    | cons b q =>
      have hparts := h
      unfold findLineEnd at h
      split_ifs at h with hend ha
      · obtain ⟨rfl, rfl⟩ := Prod.mk.inj (Option.some.inj h)
        obtain ⟨rfl, rfl⟩ := hend
        exact .crlf [] rfl rfl rfl
      · obtain ⟨rfl, rfl⟩ := Prod.mk.inj (Option.some.inj h)
        subst ha
        exact .lf [] rfl (List.cons_ne_nil _ _) (by decide) (fun _ _ => rfl) rfl
      · obtain ⟨⟨l, hs'⟩, hrest, heq⟩ := Option.map_eq_some_iff.mp h
        obtain ⟨rfl, rfl⟩ := Prod.mk.inj heq
        have hfront := findLineEnd_eq hrest
        -- the rest of the line starts with the byte behind this one
        have hhead : ∀ t u : Bytes, t ≠ [] → t ++ u = b :: q → ∃ t', t = b :: t' := by
          intro t u ht heq
          cases t with
          | nil => exact absurd rfl ht
          | cons c t => exact ⟨t, by rw [(List.cons.inj heq).1]⟩
        cases ih hrest with
        | crlf l' hline hwhole hopen =>
          obtain ⟨t, rfl⟩ := hhead l hs' (by rw [hline]; simp [NgxAnytls.crlf]) hfront.symm
          obtain ⟨t', ht'⟩ := hhead (l' ++ [13]) (10 :: hs') (by simp) (by
            rw [hfront, hline, NgxAnytls.crlf]
            simp)
          refine .crlf (a :: l') (by rw [hline]; rfl) ?_ ?_
          · rw [findLineEnd_step hend ha, hwhole]
            rfl
          · rw [List.cons_append, ht', findLineEnd_step hend ha, ← ht', hopen]
            rfl
        | lf l' hline hne hcrlf hwhole hopen =>
          obtain ⟨t, rfl⟩ := hhead l hs' (by rw [hline]; simp) hfront.symm
          refine .lf (a :: l') (by rw [hline]; rfl) hne ?_ (fun c u => ?_) ?_
          · rw [List.suffix_cons_iff]
            rintro (heq | hsuffix)
            · obtain ⟨rfl, hrest'⟩ := List.cons.inj heq
              exact hend ⟨rfl, (List.cons.inj hrest').1.symm⟩
            · exact hcrlf hsuffix
          · rw [List.cons_append, List.cons_append, findLineEnd_step hend ha]
            have hw := hwhole c u
            rw [List.cons_append] at hw
            rw [hw]
            rfl
          · rw [findLineEnd_step hend ha, hopen]
            rfl

end NgxAnytls
