import NgxAnytls.PlainHttpSplit

/-! The phase handler that answers plain HTTP on a TLS port (`ngx_anytls_reject_plain_http.c`): it
peeks until the first bytes tell TLS from plain text, and passes the connection on or answers it. -/

namespace NgxAnytls.PlainHttpPhase

def ascii (text : String) : Bytes := text.toList.map fun c => UInt8.ofNat c.toNat

/-- A line and its CRLF. -/
def htmlLine (text : String) : Bytes := ascii text ++ crlf

/-- `plain_http_400_body`. -/
def plainHttp400Body : Bytes :=
  htmlLine "<html>" ++
  htmlLine "<head><title>400 The plain HTTP request was sent to HTTPS port</title></head>" ++
  htmlLine "<body>" ++
  htmlLine "<center><h1>400 Bad Request</h1></center>" ++
  htmlLine "<center>The plain HTTP request was sent to HTTPS port</center>" ++
  htmlLine "<hr><center>nginx</center>" ++
  htmlLine "</body>" ++
  htmlLine "</html>"

/-- `not_allowed_body`. -/
def notAllowedBody : Bytes :=
  htmlLine "<html>" ++
  htmlLine "<head><title>405 Not Allowed</title></head>" ++
  htmlLine "<body>" ++
  htmlLine "<center><h1>405 Not Allowed</h1></center>" ++
  htmlLine "<hr><center>nginx</center>" ++
  htmlLine "</body>" ++
  htmlLine "</html>"

/-- `default_400_body`. -/
def default400Body : Bytes :=
  htmlLine "<html>" ++
  htmlLine "<head><title>400 Bad Request</title></head>" ++
  htmlLine "<body>" ++
  htmlLine "<center><h1>400 Bad Request</h1></center>" ++
  htmlLine "<hr><center>nginx</center>" ++
  htmlLine "</body>" ++
  htmlLine "</html>"

/-- `%uz`. -/
def sizeText (n : Nat) : Bytes := (Nat.toDigits 10 n).map fun c => UInt8.ofNat c.toNat

/-- The size of `buf`. -/
def pageBufSize : Nat := 512

/-- The length of `ngx_cached_http_time`. -/
def dateLength : Nat := 29

/-- A value of `ngx_cached_http_time`. -/
abbrev HttpTime := { date : Bytes // date.length = dateLength }

/-- The response of `ngx_anytls_reject_plain_http_send_page`. -/
def page (date : HttpTime) (status body : Bytes) : Bytes :=
  ascii "HTTP/1.1 " ++ status ++ crlf ++
  ascii "Server: nginx" ++ crlf ++
  ascii "Date: " ++ date.val ++ crlf ++
  ascii "Content-Type: text/html" ++ crlf ++
  ascii "Content-Length: " ++ sizeText body.length ++ crlf ++
  ascii "Connection: close" ++ crlf ++
  crlf ++ body

def status400 : Bytes := ascii "400 Bad Request"
def status405 : Bytes := ascii "405 Not Allowed"

/-- The page for an answer; there is none as long as more bytes are waited for. -/
def answerPage (date : HttpTime) : HttpRc → Option Bytes
  | .ok => some (page date status400 plainHttp400Body)
  | .busy => some (page date status405 notAllowedBody)
  | .error => some (page date status400 default400Body)
  | .again => none

/-- `NGX_DECLINED`, `NGX_AGAIN` and `NGX_DONE`. -/
inductive PhaseRc where
  | declined | again | done
  deriving DecidableEq, Repr

/-- What the handler looks at before it peeks. -/
structure PhaseConf where
  enabled : Bool := true
  rejectPlainHttp : Bool := true
  sockStream : Bool := true
  ssl : Bool := true
  deriving DecidableEq, Repr

/-- A connection in the SSL phase. `queue` is what came and was not read, `resumes` says that
`c->read->handler` is the session handler. -/
structure PhaseState where
  queue : Bytes := []
  eof : Bool := false
  ready : Bool := true
  resumes : Bool := false
  timerSet : Bool := false
  timedout : Bool := false
  sent : List Bytes := []
  finalized : Option Nat := none
  deriving DecidableEq, Repr

/-- The answers of a call: whether `recv` fails, whether `ngx_handle_read_event` succeeds, and the
date. -/
structure PeekEnv where
  recvError : Bool := false
  armed : Bool := true
  date : HttpTime
  deriving DecidableEq, Repr

/-- `NGX_STREAM_BAD_REQUEST` and `NGX_STREAM_INTERNAL_SERVER_ERROR`. -/
def streamBadRequest : Nat := 400
def streamInternalServerError : Nat := 500

def finalizeSession (rc : Nat) (s : PhaseState) : PhaseState := { s with finalized := some rc }

/-- `ngx_anytls_reject_plain_http_send_page`. Everything that came is drained. -/
def rejectPlainHttpSendPage (response : Bytes) (s : PhaseState) : PhaseState :=
  finalizeSession streamBadRequest { s with sent := s.sent ++ [response], queue := [] }

/-- The read event is armed again, with the timer. -/
def waitForMore (env : PeekEnv) (s : PhaseState) : PhaseRc × PhaseState :=
  let s := { s with ready := false, resumes := true, timerSet := true }
  if !env.armed then (.done, finalizeSession streamInternalServerError s) else (.again, s)

/-- A TLS record, or a ClientHello that SSLv2 can read. -/
def isTls (b : UInt8) : Bool := b == 22 || b &&& 128 != 0

/-- `ngx_anytls_reject_plain_http_handler`. -/
def rejectPlainHttpHandler (conf : PhaseConf) (env : PeekEnv) (s : PhaseState) :
    PhaseRc × PhaseState :=
  if !conf.enabled || !conf.rejectPlainHttp then (.declined, s)
  else if !conf.sockStream then (.declined, s)
  else if !conf.ssl then (.declined, s)
  else if s.timedout then (.done, finalizeSession streamBadRequest s)
  else if env.recvError then (.done, finalizeSession streamBadRequest s)
  else
    match s.queue.take plainHttpPeek with
    | [] => if s.eof then (.done, finalizeSession streamBadRequest s) else waitForMore env s
    | b :: bs =>
      if isTls b then (.declined, { s with timerSet := false })
      else
        match answerPage env.date (isHttp (b :: bs)) with
        | none => waitForMore env s
        | some response => (.done, rejectPlainHttpSendPage response s)

/-- Where the connection is: not looked at yet, waited for, passed to the TLS handler, or closed. -/
inductive Phase where
  | idle | waiting | passed | closed
  deriving DecidableEq, Repr

def PhaseRc.phase : PhaseRc → Phase
  | .declined => .passed
  | .again => .waiting
  | .done => .closed

/-- Bytes come, the client closes, the phases are run, or the timer fires. -/
inductive PhaseEvent where
  | arrive (bs : Bytes)
  | close
  | wake (env : PeekEnv)
  | expire (env : PeekEnv)
  deriving DecidableEq, Repr

structure Session where
  phase : Phase := .idle
  state : PhaseState := {}
  deriving DecidableEq, Repr

/-- The phases are run as long as the handler was not left for good. -/
def Session.runPhases (conf : PhaseConf) (env : PeekEnv) (s : Session) : Session :=
  let r := rejectPlainHttpHandler conf env s.state
  { phase := r.1.phase, state := r.2 }

def Session.live (s : Session) : Bool := s.phase = .idle || s.phase = .waiting

def Session.step (conf : PhaseConf) (s : Session) : PhaseEvent → Session
  | .arrive bs =>
    if s.phase = .closed then s
    else { s with state := { s.state with queue := s.state.queue ++ bs } }
  | .close => if s.phase = .closed then s else { s with state := { s.state with eof := true } }
  | .wake env => if s.live then s.runPhases conf env else s
  | .expire env =>
    if s.live && s.state.timerSet then
      Session.runPhases conf env
        { s with state := { s.state with timerSet := false, timedout := true } }
    else s

def run (conf : PhaseConf) (es : List PhaseEvent) : Session := es.foldl (Session.step conf) {}

/-- What came in a run. -/
def arrived : List PhaseEvent → Bytes
  | [] => []
  | .arrive bs :: es => bs ++ arrived es
  | _ :: es => arrived es

@[simp] theorem arrived_append (es es' : List PhaseEvent) :
    arrived (es ++ es') = arrived es ++ arrived es' := by
  induction es with
  | nil => rfl
  | cons e es ih => cases e <;> simp [arrived, ih]

theorem page_length (date : HttpTime) (status body : Bytes) :
    (page date status body).length =
      status.length + (sizeText body.length).length + body.length + 127 := by
  have h1 : (ascii "HTTP/1.1 ").length = 9 := by rfl
  have h2 : (ascii "Server: nginx").length = 13 := by rfl
  have h3 : (ascii "Date: ").length = 6 := by rfl
  have h4 : (ascii "Content-Type: text/html").length = 23 := by rfl
  have h5 : (ascii "Content-Length: ").length = 16 := by rfl
  have h6 : (ascii "Connection: close").length = 17 := by rfl
  have h7 : date.val.length = 29 := date.property
  simp only [page, List.length_append, h1, h2, h3, h4, h5, h6, h7, crlf, List.length_cons,
    List.length_nil]
  omega

theorem htmlLine_length (text : String) : (htmlLine text).length = text.length + 2 := by
  simp [htmlLine, ascii, crlf, String.length_toList]

/-- A page fits the buffer that it is written to. -/
theorem answerPage_fits {date : HttpTime} {response : Bytes} {rc : HttpRc}
    (h : answerPage date rc = some response) : response.length ≤ pageBufSize := by
  have hplain : plainHttp400Body.length = 248 := by
    simp only [plainHttp400Body, List.length_append, htmlLine_length]
    rfl
  have hna : notAllowedBody.length = 150 := by
    simp only [notAllowedBody, List.length_append, htmlLine_length]
    rfl
  have hdef : default400Body.length = 150 := by
    simp only [default400Body, List.length_append, htmlLine_length]
    rfl
  have h400 : status400.length = 15 := by rfl
  have h405 : status405.length = 15 := by rfl
  cases rc with
  | ok =>
    obtain rfl := Option.some.inj h
    rw [page_length, hplain, h400]
    decide
  | busy =>
    obtain rfl := Option.some.inj h
    rw [page_length, hna, h405]
    decide
  | error =>
    obtain rfl := Option.some.inj h
    rw [page_length, hdef, h400]
    decide
  | again => cases h

variable {conf : PhaseConf} {env : PeekEnv} {came : Bytes} {s : Session}

/-- The handler is one that looks at the connection. -/
def PhaseConf.serves (conf : PhaseConf) : Bool :=
  conf.enabled && conf.rejectPlainHttp && conf.sockStream && conf.ssl

def StartsTls (p : Bytes) : Prop := ∃ b rest, p = b :: rest ∧ isTls b = true

/-- The client was sent the one page for a part of what came, all of which was drained. -/
structure Answered (came : Bytes) (s : PhaseState) : Prop where
  page : ∃ date p response, p <+: came ∧ p ≠ [] ∧ ¬StartsTls p ∧
    answerPage date (isHttp p) = some response ∧ response.length ≤ pageBufSize ∧
    s.sent = [response]
  finalized : s.finalized = some streamBadRequest
  drained : s.queue = []

/-- What holds of a connection by what came. -/
def Outcome (conf : PhaseConf) (came : Bytes) (s : Session) : Prop :=
  match s.phase with
  | .idle => s.state.queue = came ∧ s.state.sent = [] ∧ s.state.finalized = none ∧
      s.state.timerSet = false
  | .waiting => s.state.queue = came ∧ s.state.sent = [] ∧ s.state.finalized = none ∧
      s.state.timerSet = true ∧ s.state.resumes = true ∧ conf.serves = true
  | .passed => s.state.queue = came ∧ s.state.sent = [] ∧ s.state.finalized = none ∧
      s.state.timerSet = false ∧ (conf.serves = true → StartsTls came)
  | .closed => s.state.finalized.isSome = true ∧ (s.state.sent = [] ∨ Answered came s.state)

theorem StartsTls.append {p : Bytes} (h : StartsTls p) (x : Bytes) : StartsTls (p ++ x) := by
  obtain ⟨b, rest, rfl, htls⟩ := h
  exact ⟨b, rest ++ x, rfl, htls⟩

theorem Answered.append {st : PhaseState} (h : Answered came st) (x : Bytes) :
    Answered (came ++ x) st := by
  obtain ⟨date, p, response, hp, hrest⟩ := h.page
  exact ⟨⟨date, p, response, hp.trans (List.prefix_append came x), hrest⟩, h.finalized, h.drained⟩

/-- A handler that does not serve leaves the connection as it is. -/
theorem handler_unserved (hconf : conf.serves = false) (st : PhaseState) :
    rejectPlainHttpHandler conf env st = (.declined, st) := by
  unfold rejectPlainHttpHandler
  obtain ⟨e, r, k, ssl⟩ := conf
  cases e <;> cases r <;> cases k <;> cases ssl <;> first | rfl | cases hconf

/-- A handler that serves: a timeout or an error closes, and the bytes decide what else. -/
theorem handler_served (hconf : conf.serves = true) (st : PhaseState) :
    rejectPlainHttpHandler conf env st =
      if st.timedout || env.recvError then (.done, finalizeSession streamBadRequest st)
      else
        match st.queue.take plainHttpPeek with
        | [] => if st.eof then (.done, finalizeSession streamBadRequest st) else waitForMore env st
        | b :: bs =>
          if isTls b then (.declined, { st with timerSet := false })
          else
            match answerPage env.date (isHttp (b :: bs)) with
            | none => waitForMore env st
            | some response => (.done, rejectPlainHttpSendPage response st) := by
  unfold rejectPlainHttpHandler
  obtain ⟨e, r, k, ssl⟩ := conf
  obtain ⟨⟨⟨rfl, rfl⟩, rfl⟩, rfl⟩ : ((e = true ∧ r = true) ∧ k = true) ∧ ssl = true := by
    simpa [PhaseConf.serves] using hconf
  cases st.timedout <;> cases env.recvError <;> rfl

/-- A connection that is waited for has its timer, or is closed for want of it. -/
theorem waitForMore_outcome (hconf : conf.serves = true) {st : PhaseState}
    (hqueue : st.queue = came) (hsent : st.sent = []) (hfin : st.finalized = none) :
    Outcome conf came
      { phase := (waitForMore env st).1.phase, state := (waitForMore env st).2 } := by
  unfold waitForMore
  cases henv : env.armed with
  | true => exact ⟨hqueue, hsent, hfin, rfl, rfl, hconf⟩
  | false => exact ⟨rfl, .inl hsent⟩

/-- One call of the handler, the connection being idle or waited for. -/
theorem runPhases_outcome {st : PhaseState} {phase : Phase} (hqueue : st.queue = came)
    (hsent : st.sent = []) (hfin : st.finalized = none)
    (htimer : conf.serves = false → st.timerSet = false) :
    Outcome conf came (Session.runPhases conf env { phase := phase, state := st }) := by
  unfold Session.runPhases
  cases hconf : conf.serves with
  | false =>
    rw [handler_unserved hconf]
    exact ⟨hqueue, hsent, hfin, htimer hconf, fun h =>
      absurd (hconf.symm.trans h) Bool.false_ne_true⟩
  | true =>
    rw [handler_served hconf]
    by_cases hstop : (st.timedout || env.recvError) = true
    · rw [if_pos hstop]
      exact ⟨rfl, .inl hsent⟩
    rw [if_neg hstop]
    have hpre : st.queue.take plainHttpPeek <+: came := hqueue ▸ List.take_prefix _ _
    cases hpeek : st.queue.take plainHttpPeek with
    | nil =>
      dsimp only
      split
      · exact ⟨rfl, .inl hsent⟩
      · exact waitForMore_outcome hconf hqueue hsent hfin
    | cons b bs =>
      rw [hpeek] at hpre
      dsimp only
      cases htls : isTls b with
      | true =>
        obtain ⟨rest, hrest⟩ := hpre
        exact ⟨hqueue, hsent, hfin, rfl, fun _ => ⟨b, bs ++ rest, hrest.symm, htls⟩⟩
      | false =>
        cases hanswer : answerPage env.date (isHttp (b :: bs)) with
        | none => exact waitForMore_outcome hconf hqueue hsent hfin
        | some response =>
          refine ⟨rfl, .inr ⟨⟨env.date, b :: bs, response, hpre, List.cons_ne_nil _ _, ?_, hanswer,
            answerPage_fits hanswer, by simp [rejectPlainHttpSendPage, finalizeSession, hsent]⟩,
            rfl, rfl⟩⟩
          rintro ⟨b', rest, heq, htls'⟩
          obtain ⟨rfl, -⟩ := List.cons.inj heq
          exact absurd (htls.symm.trans htls') Bool.false_ne_true

/-- One event. -/
theorem Outcome.step (h : Outcome conf came s) (e : PhaseEvent) :
    Outcome conf (came ++ arrived [e]) (Session.step conf s e) := by
  obtain ⟨phase, st⟩ := s
  cases e with
  | arrive bs =>
    have harrived : arrived [.arrive bs] = bs := by simp [arrived]
    rw [harrived]
    cases phase with
    | idle => exact ⟨congrArg (· ++ bs) h.1, h.2⟩
    | waiting => exact ⟨congrArg (· ++ bs) h.1, h.2⟩
    | passed =>
      obtain ⟨hqueue, hsent, hfin, htimer, htls⟩ := h
      exact ⟨congrArg (· ++ bs) hqueue, hsent, hfin, htimer, fun hconf => (htls hconf).append bs⟩
    | closed => exact ⟨h.1, h.2.imp_right fun ha => ha.append bs⟩
  | close =>
    have harrived : came ++ arrived [.close] = came := List.append_nil came
    rw [harrived]
    cases phase with
    | idle => exact h
    | waiting => exact h
    | passed => exact h
    | closed => exact h
  | wake env =>
    have harrived : came ++ arrived [.wake env] = came := List.append_nil came
    rw [harrived]
    cases phase with
    | idle =>
      obtain ⟨hqueue, hsent, hfin, htimer⟩ := h
      exact runPhases_outcome hqueue hsent hfin fun _ => htimer
    | waiting =>
      obtain ⟨hqueue, hsent, hfin, -, -, hconf⟩ := h
      exact runPhases_outcome hqueue hsent hfin fun hno =>
        absurd (hno.symm.trans hconf) Bool.false_ne_true
    | passed => exact h
    | closed => exact h
  | expire env =>
    have harrived : came ++ arrived [.expire env] = came := List.append_nil came
    rw [harrived]
    cases phase with
    | idle =>
      have htimer : st.timerSet = false := h.2.2.2
      simpa [Session.step, Session.live, htimer] using h
    | waiting =>
      obtain ⟨hqueue, hsent, hfin, htimer, -, -⟩ := h
      have htimer' : st.timerSet = true := htimer
      simp only [Session.step, Session.live, htimer']
      exact runPhases_outcome hqueue hsent hfin fun _ => rfl
    | passed => exact h
    | closed => exact h

theorem foldl_outcome (es : List PhaseEvent) : ∀ {came : Bytes} {s : Session},
    Outcome conf came s →
      Outcome conf (came ++ arrived es) (es.foldl (Session.step conf) s) := by
  induction es with
  | nil =>
    intro came s h
    simpa [arrived] using h
  | cons e es ih =>
    intro came s h
    have hnext := ih (h.step e)
    rwa [List.append_assoc, ← arrived_append] at hnext

/-- However the client's bytes come and whenever the phases are run: a connection is passed on to
TLS untouched and only by its first byte, it is waited for with a timer, or it is closed with at
most one page, that of what the last peek saw. -/
theorem run_outcome (conf : PhaseConf) (es : List PhaseEvent) :
    Outcome conf (arrived es) (run conf es) :=
  have hidle : Outcome conf [] {} := ⟨rfl, rfl, rfl, rfl⟩
  foldl_outcome es hidle

/-- Bytes come, or the phases are run and nothing fails. -/
def PhaseEvent.calm : PhaseEvent → Bool
  | .arrive _ => true
  | .wake env => !env.recvError && env.armed
  | _ => false

/-- Nothing failed: a closed connection was answered. -/
structure Calm (s : Session) : Prop where
  timedout : s.state.timedout = false
  eof : s.state.eof = false
  closed : s.phase = .closed → s.state.sent ≠ []

theorem waitForMore_armed (harmed : env.armed = true) (st : PhaseState) :
    waitForMore env st =
      (.again, { st with ready := false, resumes := true, timerSet := true }) := by
  simp [waitForMore, harmed]

/-- What a call does when nothing fails. -/
theorem handler_calm (hconf : conf.serves = true) (henv : PhaseEvent.calm (.wake env) = true)
    {st : PhaseState} (htimedout : st.timedout = false) (heof : st.eof = false) :
    rejectPlainHttpHandler conf env st =
      match st.queue.take plainHttpPeek with
      | [] => waitForMore env st
      | b :: bs =>
        if isTls b then (.declined, { st with timerSet := false })
        else
          match answerPage env.date (isHttp (b :: bs)) with
          | none => waitForMore env st
          | some response => (.done, rejectPlainHttpSendPage response st) := by
  have herr : env.recvError = false := by
    simp only [PhaseEvent.calm, Bool.and_eq_true, Bool.not_eq_true'] at henv
    exact henv.1
  rw [handler_served hconf, htimedout, herr]
  simp [heof]

theorem Calm.runPhases (hconf : conf.serves = true) (henv : PhaseEvent.calm (.wake env) = true)
    (h : Calm s) : Calm (s.runPhases conf env) := by
  have harmed : env.armed = true := by
    simp only [PhaseEvent.calm, Bool.and_eq_true] at henv
    exact henv.2
  unfold Session.runPhases
  rw [handler_calm hconf henv h.timedout h.eof, waitForMore_armed harmed]
  cases s.state.queue.take plainHttpPeek with
  | nil => exact ⟨h.timedout, h.eof, nofun⟩
  | cons b bs =>
    dsimp only
    split
    · exact ⟨h.timedout, h.eof, nofun⟩
    · cases answerPage env.date (isHttp (b :: bs)) with
      | none => exact ⟨h.timedout, h.eof, nofun⟩
      | some response =>
        exact ⟨h.timedout, h.eof, fun _ => by simp [rejectPlainHttpSendPage, finalizeSession]⟩

theorem Calm.step (hconf : conf.serves = true) {e : PhaseEvent} (he : e.calm = true) (h : Calm s) :
    Calm (Session.step conf s e) := by
  cases e with
  | arrive bs =>
    simp only [Session.step]
    split
    · exact h
    · exact ⟨h.timedout, h.eof, h.closed⟩
  | wake env =>
    simp only [Session.step]
    split
    · exact h.runPhases hconf he
    · exact h
  | close => cases he
  | expire env => cases he

theorem foldl_calm (hconf : conf.serves = true) (es : List PhaseEvent) :
    ∀ {s : Session}, (∀ e ∈ es, e.calm = true) → Calm s →
      Calm (es.foldl (Session.step conf) s) := by
  induction es with
  | nil => exact fun _ h => h
  | cons e es ih =>
    intro s hes h
    exact ih (fun e' he' => hes e' (List.mem_cons_of_mem e he'))
      (h.step hconf (hes e List.mem_cons_self))

/-- A request that no peek can cut badly is answered with the one page it calls for, however it
was cut on its way and whenever the phases were run meanwhile. -/
theorem run_answer (hconf : conf.serves = true) {w : Bytes} (hplain : ¬StartsTls w)
    (hlimit : w.length ≤ plainHttpPeek) (hsafe : PeekSafe w) (hanswer : isHttp w ≠ .again)
    (es : List PhaseEvent) (hes : ∀ e ∈ es, e.calm = true) (hcame : arrived es = w)
    (env : PeekEnv) (henv : PhaseEvent.calm (.wake env) = true) :
    ∃ date response, answerPage date (isHttp w) = some response ∧
      (run conf (es ++ [.wake env])).state.sent = [response] ∧
      (run conf (es ++ [.wake env])).state.finalized = some streamBadRequest := by
  have hsplit : SplitFree w := (splitFree_iff hlimit).mpr hsafe
  have hout : Outcome conf w (run conf es) := hcame ▸ run_outcome conf es
  have hcalm : Calm (run conf es) := foldl_calm hconf es hes ⟨rfl, rfl, nofun⟩
  have hrun : run conf (es ++ [.wake env]) = (run conf es).step conf (.wake env) := by
    simp [run]
  rw [hrun]
  have hlive : ∀ st : PhaseState, st.timedout = false → st.eof = false → st.queue = w →
      st.sent = [] → ∃ date response, answerPage date (isHttp w) = some response ∧
        (rejectPlainHttpHandler conf env st).2.sent = [response] ∧
        (rejectPlainHttpHandler conf env st).2.finalized = some streamBadRequest := by
    intro st htimedout heof hqueue hsent
    have htake : st.queue.take plainHttpPeek = w := by rw [hqueue, List.take_of_length_le hlimit]
    rw [handler_calm hconf henv htimedout heof, htake]
    cases w with
    | nil => exact absurd (isHttp_short (p := []) (by decide)) hanswer
    | cons b bs =>
      have htls : isTls b = false := by
        cases hb : isTls b with
        | false => rfl
        | true => exact absurd ⟨b, bs, rfl, hb⟩ hplain
      cases hpage : answerPage env.date (isHttp (b :: bs)) with
      | none =>
        cases hrc : isHttp (b :: bs) with
        | again => exact absurd hrc hanswer
        | ok => rw [hrc] at hpage; cases hpage
        | busy => rw [hrc] at hpage; cases hpage
        | error => rw [hrc] at hpage; cases hpage
      | some response =>
        refine ⟨env.date, response, hpage, ?_, ?_⟩
        · simp [htls, hpage, rejectPlainHttpSendPage, finalizeSession, hsent]
        · simp [htls, hpage, rejectPlainHttpSendPage, finalizeSession]
  generalize run conf es = s at hout hcalm
  obtain ⟨phase, st⟩ := s
  cases phase with
  | idle => exact hlive st hcalm.timedout hcalm.eof hout.1 hout.2.1
  | waiting => exact hlive st hcalm.timedout hcalm.eof hout.1 hout.2.1
  | passed => exact absurd (hout.2.2.2.2 hconf) hplain
  | closed =>
    rcases hout.2 with hnone | ha
    · exact absurd hnone (hcalm.closed rfl)
    · obtain ⟨date, p, response, hp, -, -, hpage, -, hsent⟩ := ha.page
      have hdecided : isHttp p ≠ .again := by
        intro hagain
        rw [hagain] at hpage
        cases hpage
      rw [hsplit p hp hdecided] at hpage
      exact ⟨date, response, hpage, hsent, ha.finalized⟩

def sampleDate : HttpTime := ⟨List.replicate 29 48, by rfl⟩

/-- `GET / HTTP/1.0` in three parts, the end of the line cut in two, with a call after each. -/
def sampleParts : List PhaseEvent :=
  [.arrive (httpSample.take 6), .wake { date := sampleDate }, .arrive ((httpSample.drop 6).take 9),
    .wake { date := sampleDate }, .arrive (httpSample.drop 15)]

theorem run_answer_sample :
    ∃ date response, answerPage date (isHttp httpSample) = some response ∧
      (run {} (sampleParts ++ [.wake { date := sampleDate }])).state.sent = [response] ∧
      (run {} (sampleParts ++ [.wake { date := sampleDate }])).state.finalized =
        some streamBadRequest := by
  refine run_answer (w := httpSample) rfl ?_ (by decide) httpSample_safe (by decide) sampleParts
    (by decide) rfl _ rfl
  rintro ⟨b, rest, heq, htls⟩
  obtain ⟨rfl, -⟩ := List.cons.inj heq
  revert htls
  decide

end NgxAnytls.PlainHttpPhase
