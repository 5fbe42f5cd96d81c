import NgxAnytls.PaddingScheme
import NgxAnytls.StreamTable

/-! The server configuration (`ngx_stream_anytls_module.c`) and the load of the padding scheme
(`ngx_anytls_padding.c`): the directives, their errors, and what a configuration that is accepted
holds. -/

namespace NgxAnytls.StreamModule

/-- The fields of `ngx_stream_anytls_size_slot`. -/
inductive SizeField where
  | bufferSize | maxPendingOutput | maxPendingInput | uotPendingBytes
  deriving DecidableEq, Repr

/-- The fields of `ngx_stream_anytls_num_slot`. -/
inductive NumField where
  | maxStreams | maxUotStreams | uotPendingPackets
  deriving DecidableEq, Repr

/-- The fields of `ngx_conf_set_msec_slot`. -/
inductive MsecField where
  | fallbackConnectTimeout | upstreamConnectTimeout | handshakeTimeout | writeTimeout
  | uotIdleTimeout
  deriving DecidableEq, Repr

/-- The fields of `ngx_stream_anytls_flag`. -/
inductive FlagField where
  | enabled | rejectPlainHttp
  deriving DecidableEq, Repr

/-- The defaults `NGX_ANYTLS_DEFAULT_…`. -/
def SizeField.default : SizeField → Nat
  | .bufferSize => 65535
  | .maxPendingOutput => 8 * 1024 * 1024
  | .maxPendingInput => 8 * 1024 * 1024
  | .uotPendingBytes => 512 * 1024

def NumField.default : NumField → Nat
  | .maxStreams => 1024
  | .maxUotStreams => 64
  | .uotPendingPackets => 256

def MsecField.default : MsecField → Nat
  | .fallbackConnectTimeout => 60000
  | .upstreamConnectTimeout => 5000
  | .handshakeTimeout => 60000
  | .writeTimeout => 60000
  | .uotIdleTimeout => 300000

def FlagField.default : FlagField → Bool
  | .enabled => false
  | .rejectPlainHttp => true

/-- Why a configuration is refused. -/
inductive ConfError where
  | duplicate
  | invalidValue
  | flagValue (value : Bytes)
  | emptyName
  | emptyPassword
  | tooManyUsers
  | noMemory
  | complexValue
  | proxyProtocolValue (value : Bytes)
  | userRequired
  | duplicatePassword (name other : Bytes)
  | duplicateName (name : Bytes)
  | openFailed (file : Bytes)
  | infoFailed (file : Bytes)
  | fileSize (file : Bytes) (size : Int)
  | readFailed (file : Bytes)
  | fileFormat (file : Bytes)
  -- a place outside of the array of users
  | outOfBounds
  deriving DecidableEq, Repr

/-- What a directive returns or logs, without the values. -/
def ConfError.text : ConfError → String
  | .duplicate => "is duplicate"
  | .invalidValue => "invalid value"
  | .flagValue _ => "invalid value, it must be \"on\" or \"off\""
  | .emptyName => "\"anytls_user\" name must not be empty"
  | .emptyPassword => "\"anytls_user\" password must not be empty"
  | .tooManyUsers => "too many \"anytls_user\" directives (max 64)"
  | .noMemory => ""
  | .complexValue => ""
  | .proxyProtocolValue _ =>
    "invalid value in \"anytls_fallback_proxy_protocol\" directive, it must be \"on\" or \"off\""
  | .userRequired => "anytls: \"anytls_user\" is required"
  | .duplicatePassword _ _ => "anytls: duplicate password for \"anytls_user\" and \"anytls_user\""
  | .duplicateName _ => "anytls: duplicate user name"
  | .openFailed _ => "anytls: open failed"
  | .infoFailed _ => "anytls: ngx_fd_info failed"
  | .fileSize _ _ => "anytls: padding file size is invalid"
  | .readFailed _ => "anytls: read failed"
  | .fileFormat _ => "anytls: padding file has invalid format"
  | .outOfBounds => ""

/-- `ngx_stream_anytls_srv_conf_t`; `none` is `NGX_CONF_UNSET`. A cell of `users` that was not
written is `none`. -/
structure SrvConf where
  flag : FlagField → Option Bool := fun _ => none
  users : List (Option User) := []
  usersN : Nat := 0
  paddingFile : Option Bytes := none
  paddingData : Option Bytes := none
  paddingMd5 : Bytes := []
  fallback : Option Bytes := none
  fallbackProxyProtocol : Option Bool := none
  size : SizeField → Option Nat := fun _ => none
  num : NumField → Option Nat := fun _ => none
  msec : MsecField → Option Nat := fun _ => none
  resolver : Bool := false
  resolverTimeout : Option Nat := none

/-- A block of memory, with whatever it holds. -/
abbrev Block (n : Nat) := { b : Bytes // b.length = n }

/-- What the file system says of a padding file: its size, and what a read of so many bytes
finds. -/
structure PaddingFile where
  size : Option Int
  read : Nat → Option Bytes

/-- The digests, `ngx_parse_size`, `ngx_parse_time`, the files and the memory. -/
structure ConfEnv where
  sha256 : Bytes → Bytes
  md5Hex : Bytes → Bytes
  parseSize : Bytes → Option Nat
  parseTime : Bytes → Option Nat
  file : Bytes → Option PaddingFile
  palloc : (n : Nat) → Option (Block n)

/-- A directive and its arguments, with the answers of the allocator and of the compiler of complex
values. -/
inductive Directive where
  | flag (field : FlagField) (value : Bytes)
  | user (name password : Bytes) (alloc : Bool)
  | padding (file : Bytes)
  | fallback (value : Bytes) (alloc compiles : Bool)
  | fallbackProxyProtocol (value : Bytes)
  | size (field : SizeField) (value : Bytes)
  | num (field : NumField) (value : Bytes)
  | msec (field : MsecField) (value : Bytes)
  deriving DecidableEq, Repr

def onText : Bytes := [111, 110]
def offText : Bytes := [111, 102, 102]

/-- `ngx_tolower`. -/
def toLower (b : UInt8) : UInt8 := if 65 ≤ b.toNat ∧ b.toNat ≤ 90 then b ||| 32 else b

/-- `ngx_conf_set_flag_slot`, through `ngx_stream_anytls_flag`. -/
def confFlag (field : FlagField) (value : Bytes) (c : SrvConf) : Except ConfError SrvConf :=
  if (c.flag field).isSome then .error .duplicate
  else if value.map toLower = onText then
    .ok { c with flag := Function.update c.flag field (some true) }
  else if value.map toLower = offText then
    .ok { c with flag := Function.update c.flag field (some false) }
  else .error (.flagValue value)

/-- `NGX_ANYTLS_MAX_USERS`. -/
def maxUsers : Nat := 64

/-- The array of users, made or doubled when it is full. -/
def growUsers (alloc : Bool) (c : SrvConf) : Option (List (Option User)) :=
  if c.users.length = 0 then if alloc then some (List.replicate 8 none) else none
  else if c.usersN = c.users.length then
    if alloc then
      some (c.users.take c.usersN ++ List.replicate (c.users.length * 2 - c.usersN) none)
    else none
  else some c.users

/-- `ngx_stream_anytls_user`. -/
def confUser (env : ConfEnv) (name password : Bytes) (alloc : Bool) (c : SrvConf) :
    Except ConfError SrvConf :=
  if name.length = 0 then .error .emptyName
  else if password.length = 0 then .error .emptyPassword
  else if maxUsers ≤ c.usersN then .error .tooManyUsers
  else
    match growUsers alloc c with
    | none => .error .noMemory
    | some users =>
      if users.length ≤ c.usersN then .error .outOfBounds
      else .ok { c with
        users := users.set c.usersN (some { name := name, hash := env.sha256 password })
        usersN := c.usersN + 1 }

/-- `ngx_stream_anytls_padding`. -/
def confPadding (file : Bytes) (c : SrvConf) : Except ConfError SrvConf :=
  if c.paddingFile.isSome then .error .duplicate else .ok { c with paddingFile := some file }

/-- `ngx_stream_anytls_fallback`. -/
def confFallback (value : Bytes) (alloc compiles : Bool) (c : SrvConf) : Except ConfError SrvConf :=
  if c.fallback.isSome then .error .duplicate
  else if !alloc then .error .noMemory
  else if !compiles then .error .complexValue
  else .ok { c with fallback := some value }

/-- `ngx_stream_anytls_fallback_proxy_protocol`. -/
def confFallbackProxyProtocol (value : Bytes) (c : SrvConf) : Except ConfError SrvConf :=
  if c.fallbackProxyProtocol.isSome then .error .duplicate
  else if value = onText then .ok { c with fallbackProxyProtocol := some true }
  else if value = offText then .ok { c with fallbackProxyProtocol := some false }
  else .error (.proxyProtocolValue value)

/-- `ngx_stream_anytls_size_slot`. -/
def confSize (env : ConfEnv) (field : SizeField) (value : Bytes) (c : SrvConf) :
    Except ConfError SrvConf :=
  if (c.size field).isSome then .error .duplicate
  else
    match env.parseSize value with
    | none => .error .invalidValue
    | some n => .ok { c with size := Function.update c.size field (some n) }

/-- `ngx_stream_anytls_num_slot`. -/
def confNum (field : NumField) (value : Bytes) (c : SrvConf) : Except ConfError SrvConf :=
  if (c.num field).isSome then .error .duplicate
  else
    match ngxAtoi value with
    | none => .error .invalidValue
    | some n =>
      if n < 1 then .error .invalidValue
      else .ok { c with num := Function.update c.num field (some n) }

/-- `ngx_conf_set_msec_slot`. -/
def confMsec (env : ConfEnv) (field : MsecField) (value : Bytes) (c : SrvConf) :
    Except ConfError SrvConf :=
  if (c.msec field).isSome then .error .duplicate
  else
    match env.parseTime value with
    | none => .error .invalidValue
    | some n => .ok { c with msec := Function.update c.msec field (some n) }

def directive (env : ConfEnv) (c : SrvConf) : Directive → Except ConfError SrvConf
  | .flag field value => confFlag field value c
  | .user name password alloc => confUser env name password alloc c
  | .padding file => confPadding file c
  | .fallback value alloc compiles => confFallback value alloc compiles c
  | .fallbackProxyProtocol value => confFallbackProxyProtocol value c
  | .size field value => confSize env field value c
  | .num field value => confNum field value c
  | .msec field value => confMsec env field value c

/-- The directives of a block, from `ngx_stream_anytls_create_srv_conf` to the first error. -/
def configure (env : ConfEnv) (ds : List Directive) : Except ConfError SrvConf :=
  ds.foldlM (directive env) {}

/-- `NGX_ANYTLS_DEFAULT_PADDING`. -/
def defaultPadding : Bytes :=
  ("stop=8\n0=30-30\n1=100-400\n2=400-500,c,500-1000,c,500-1000,c,500-1000,c,500-1000\n" ++
    "3=9-9,500-1000\n4=500-1000\n5=500-1000\n6=500-1000\n7=500-1000").toList.map
      fun c => UInt8.ofNat c.toNat

/-- The padding data of a file. A read that ends early leaves the rest of the block as it was. -/
def paddingRead (env : ConfEnv) (name : Bytes) : Except ConfError Bytes :=
  match env.file name with
  | none => .error (.openFailed name)
  | some f =>
    match f.size with
    | none => .error (.infoFailed name)
    | some fsize =>
      if fsize ≤ 0 ∨ (maxFrameData : Int) < fsize then .error (.fileSize name fsize)
      else
        match env.palloc fsize.toNat with
        | none => .error .noMemory
        | some block =>
          match f.read fsize.toNat with
          | none => .error (.readFailed name)
          | some bs =>
            let data := bs.take fsize.toNat ++ block.val.drop bs.length
            if paddingValidate data ≠ some true then .error (.fileFormat name) else .ok data

/-- `ngx_anytls_padding_load`. -/
def paddingLoad (env : ConfEnv) (c : SrvConf) : Except ConfError SrvConf :=
  if c.paddingData.isSome then .ok c
  else
    match c.paddingFile with
    | none =>
      match env.palloc defaultPadding.length with
      | none => .error .noMemory
      | some _ => .ok { c with
        paddingData := some defaultPadding, paddingMd5 := env.md5Hex defaultPadding }
    | some name => do
      let data ← paddingRead env name
      .ok { c with paddingData := some data, paddingMd5 := env.md5Hex data }

/-- One user against the ones behind it. -/
def checkUser (u : User) : List User → Except ConfError Unit
  | [] => .ok ()
  | v :: vs =>
    if u.hash = v.hash then .error (.duplicatePassword u.name v.name)
    else if u.name = v.name then .error (.duplicateName u.name)
    else checkUser u vs

/-- The two loops over the users. -/
def checkUsers : List User → Except ConfError Unit
  | [] => .ok ()
  | u :: us => do
    checkUser u us
    checkUsers us

/-- The users of the array, every place below `users_n`. -/
def readUsers (c : SrvConf) : Except ConfError (List User) :=
  if c.users.length < c.usersN then .error .outOfBounds
  else
    match (c.users.take c.usersN).mapM id with
    | none => .error .outOfBounds
    | some us => .ok us

/-- `ngx_stream_core_srv_conf_t`: whether it has a resolver, and its timeout. -/
structure CoreConf where
  resolver : Bool := false
  resolverTimeout : Option Nat := none
  deriving DecidableEq, Repr

/-- A configuration after the merge. -/
structure Merged where
  flag : FlagField → Bool
  users : List User
  paddingFile : Option Bytes
  paddingData : Bytes
  paddingMd5 : Bytes
  fallback : Option Bytes
  fallbackProxyProtocol : Bool
  size : SizeField → Nat
  num : NumField → Nat
  msec : MsecField → Nat
  resolver : Bool
  resolverTimeout : Nat

/-- The padding scheme is inherited, the name with what was loaded. -/
def inheritPadding (prev c : SrvConf) : SrvConf :=
  if c.paddingFile.isNone && prev.paddingFile.isSome then
    { c with
      paddingFile := prev.paddingFile, paddingData := prev.paddingData
      paddingMd5 := prev.paddingMd5 }
  else c

/-- `anytls_max_streams`, which is cut to 65536. -/
def mergeNum (prev c : SrvConf) (field : NumField) : Nat :=
  let n := ((c.num field).or (prev.num field)).getD field.default
  if field = .maxStreams ∧ 65536 < n then 65536 else n

/-- The default of `resolver_timeout`, which has no directive. -/
def defaultResolverTimeout : Nat := 30000

/-- The checks of the users of a server that is enabled. -/
def checkEnabled (enabled : Bool) (us : List User) : Except ConfError Unit :=
  if !enabled then .ok ()
  else if us = [] then .error .userRequired
  else checkUsers us

/-- The values of the merge, `loaded` being the configuration with its padding scheme. -/
def mergedConf (core : CoreConf) (prev loaded : SrvConf) (us : List User) : Merged :=
  let flag := fun field : FlagField => ((loaded.flag field).or (prev.flag field)).getD field.default
  let timeout := (loaded.resolverTimeout.or prev.resolverTimeout).getD defaultResolverTimeout
  { flag := flag
    users := us
    paddingFile := loaded.paddingFile
    paddingData := loaded.paddingData.getD []
    paddingMd5 := loaded.paddingMd5
    fallback := loaded.fallback.or prev.fallback
    fallbackProxyProtocol :=
      (loaded.fallbackProxyProtocol.or prev.fallbackProxyProtocol).getD false
    size := fun field => ((loaded.size field).or (prev.size field)).getD field.default
    num := mergeNum prev loaded
    msec := fun field => ((loaded.msec field).or (prev.msec field)).getD field.default
    resolver :=
      if flag .enabled then loaded.resolver || prev.resolver || core.resolver else loaded.resolver
    resolverTimeout :=
      if flag .enabled && core.resolverTimeout.isSome && timeout == defaultResolverTimeout then
        core.resolverTimeout.getD timeout
      else timeout }

/-- `ngx_stream_anytls_merge_srv_conf`. -/
def mergeSrvConf (env : ConfEnv) (core : CoreConf) (prev c : SrvConf) : Except ConfError Merged :=
  do
  let us ← readUsers c
  checkEnabled (((c.flag .enabled).or (prev.flag .enabled)).getD FlagField.enabled.default) us
  let loaded ← paddingLoad env (inheritPadding prev c)
  .ok (mergedConf core prev loaded us)

variable {env : ConfEnv} {c c' : SrvConf} {ds : List Directive}

/-- The user that a directive declares. -/
def Directive.declares (env : ConfEnv) : Directive → Option User
  | .user name password _ => some { name := name, hash := env.sha256 password }
  | _ => none

/-- The users that the directives declare, in order. -/
def declared (env : ConfEnv) (ds : List Directive) : List User :=
  ds.filterMap (Directive.declares env)

/-- The array holds the users that were declared, in a block that is doubled up to the limit. -/
structure Configured (env : ConfEnv) (ds : List Directive) (c : SrvConf) : Prop where
  users : c.users.take c.usersN = (declared env ds).map some
  count : c.usersN = (declared env ds).length
  limit : c.usersN ≤ maxUsers
  fits : c.usersN ≤ c.users.length
  capacity : c.users.length = 0 ∨ ∃ k ≤ 3, c.users.length = 8 * 2 ^ k
  paddingData : c.paddingData = none
  num : ∀ field n, c.num field = some n → 1 ≤ n

/-- There is room behind the users of an array that was grown. -/
theorem growUsers_room (h : Configured env ds c) (hlt : c.usersN < maxUsers) {alloc : Bool}
    {users : List (Option User)} (hg : growUsers alloc c = some users) :
    c.usersN < users.length ∧ users.take c.usersN = c.users.take c.usersN ∧
      ∃ k ≤ 3, users.length = 8 * 2 ^ k := by
  have hfits := h.fits
  unfold growUsers at hg
  split_ifs at hg with hempty ha hfull ha
  · obtain rfl := Option.some.inj hg
    have hzero : c.usersN = 0 := by omega
    exact ⟨by simp [hzero], by simp [hzero], 0, by decide, by simp⟩
  · obtain rfl := Option.some.inj hg
    obtain ⟨k, hk, hlen⟩ := h.capacity.resolve_left hempty
    have hk2 : k ≤ 2 := by
      by_contra hk3
      obtain rfl : k = 3 := by omega
      rw [hfull, hlen] at hlt
      exact absurd hlt (by decide)
    have hnew : (c.users.take c.usersN ++
        List.replicate (c.users.length * 2 - c.usersN) (none : Option User)).length =
          c.users.length * 2 := by
      simp only [List.length_append, List.length_take, List.length_replicate]
      omega
    refine ⟨by omega, ?_, k + 1, by omega, ?_⟩
    · rw [List.take_append_of_le_length (by simp; omega), List.take_take, min_self]
    · rw [hnew, hlen, pow_succ]
      omega
  · obtain rfl := Option.some.inj hg
    exact ⟨by omega, rfl, h.capacity.resolve_left hempty⟩

/-- A user is written behind the ones before it. -/
theorem confUser_configured (h : Configured env ds c) {name password : Bytes} {alloc : Bool}
    (hc : confUser env name password alloc c = .ok c') :
    Configured env (ds ++ [.user name password alloc]) c' := by
  unfold confUser at hc
  split_ifs at hc with hname hpassword hmany
  cases hg : growUsers alloc c with
  | none => rw [hg] at hc; cases hc
  | some users =>
    rw [hg] at hc
    obtain ⟨hroom, htake, hcap⟩ := growUsers_room h (not_le.mp hmany) hg
    dsimp only at hc
    rw [if_neg (not_le.mpr hroom)] at hc
    obtain rfl := Except.ok.inj hc
    have hdeclared : declared env (ds ++ [.user name password alloc]) =
        declared env ds ++ [{ name := name, hash := env.sha256 password }] := by
      simp [declared, Directive.declares]
    refine ⟨?_, ?_, ?_, ?_, .inr ?_, h.paddingData, h.num⟩
    · rw [hdeclared, List.map_append, ← h.users, ← htake]
      dsimp only
      rw [List.take_add_one, List.take_set_of_le (le_refl _), List.getElem?_set_self hroom]
      rfl
    · rw [hdeclared, List.length_append, ← h.count]
      rfl
    · exact not_le.mp hmany
    · rw [List.length_set]
      exact hroom
    · rw [List.length_set]
      exact hcap

/-- What the other directives leave as it is. -/
structure Beside (c c' : SrvConf) : Prop where
  users : c'.users = c.users
  usersN : c'.usersN = c.usersN
  paddingData : c'.paddingData = c.paddingData
  num : ∀ field n, c'.num field = some n → c.num field = some n ∨ 1 ≤ n

theorem Beside.configured (hb : Beside c c') (h : Configured env ds c) {d : Directive}
    (hd : d.declares env = none) : Configured env (ds ++ [d]) c' := by
  have hdeclared : declared env (ds ++ [d]) = declared env ds := by simp [declared, hd]
  obtain ⟨husers, hn, hpadding, hnum⟩ := hb
  refine ⟨?_, ?_, hn ▸ h.limit, ?_, husers ▸ h.capacity, hpadding.trans h.paddingData, ?_⟩
  · rw [hdeclared, husers, hn]
    exact h.users
  · rw [hdeclared, hn]
    exact h.count
  · rw [husers, hn]
    exact h.fits
  · exact fun field n hf => (hnum field n hf).elim (h.num field n) id

/-- A directive that declares no user leaves the array alone. -/
theorem directive_beside {d : Directive} (hd : d.declares env = none)
    (hc : directive env c d = .ok c') : Beside c c' := by
  cases d with
  | user name password alloc => cases hd
  | flag field value =>
    simp only [directive, confFlag] at hc
    split_ifs at hc <;> obtain rfl :=
      Except.ok.inj hc <;> exact ⟨rfl, rfl, rfl, fun _ _ h => .inl h⟩
  | padding file =>
    simp only [directive, confPadding] at hc
    split_ifs at hc
    obtain rfl := Except.ok.inj hc
    exact ⟨rfl, rfl, rfl, fun _ _ h => .inl h⟩
  | fallback value alloc compiles =>
    simp only [directive, confFallback] at hc
    split_ifs at hc
    obtain rfl := Except.ok.inj hc
    exact ⟨rfl, rfl, rfl, fun _ _ h => .inl h⟩
  | fallbackProxyProtocol value =>
    simp only [directive, confFallbackProxyProtocol] at hc
    split_ifs at hc <;> obtain rfl :=
      Except.ok.inj hc <;> exact ⟨rfl, rfl, rfl, fun _ _ h => .inl h⟩
  | size field value =>
    simp only [directive, confSize] at hc
    split_ifs at hc
    cases hp : env.parseSize value with
    | none => rw [hp] at hc; cases hc
    | some n =>
      rw [hp] at hc
      obtain rfl := Except.ok.inj hc
      exact ⟨rfl, rfl, rfl, fun _ _ h => .inl h⟩
  | msec field value =>
    simp only [directive, confMsec] at hc
    split_ifs at hc
    cases hp : env.parseTime value with
    | none => rw [hp] at hc; cases hc
    | some n =>
      rw [hp] at hc
      obtain rfl := Except.ok.inj hc
      exact ⟨rfl, rfl, rfl, fun _ _ h => .inl h⟩
  | num field value =>
    simp only [directive, confNum] at hc
    split_ifs at hc
    cases hp : ngxAtoi value with
    | none => rw [hp] at hc; cases hc
    | some n =>
      rw [hp] at hc
      dsimp only at hc
      split_ifs at hc with hn
      obtain rfl := Except.ok.inj hc
      refine ⟨rfl, rfl, rfl, fun field' n' h => ?_⟩
      change Function.update c.num field (some n) field' = some n' at h
      by_cases hfield : field' = field
      · subst hfield
        rw [Function.update_self] at h
        obtain rfl := Option.some.inj h
        exact .inr (not_lt.mp hn)
      · rw [Function.update_of_ne hfield] at h
        exact .inl h

/-- One directive. -/
theorem Configured.directive (h : Configured env ds c) {d : Directive}
    (hc : directive env c d = .ok c') : Configured env (ds ++ [d]) c' := by
  cases hd : d.declares env with
  | none => exact (directive_beside hd hc).configured h hd
  | some u =>
    cases d with
    | user name password alloc => exact confUser_configured h hc
    | _ => cases hd

/-- No directive writes outside of the array. -/
theorem Configured.in_bounds (h : Configured env ds c) (d : Directive) :
    StreamModule.directive env c d ≠ .error .outOfBounds := by
  intro he
  cases d with
  | user name password alloc =>
    simp only [StreamModule.directive, confUser] at he
    split_ifs at he with hname hpassword hmany
    · cases he
    · cases he
    · cases he
    · cases hg : growUsers alloc c with
      | none => rw [hg] at he; cases he
      | some users =>
        obtain ⟨hroom, -, -⟩ := growUsers_room h (not_le.mp hmany) hg
        rw [hg] at he
        dsimp only at he
        rw [if_neg (not_le.mpr hroom)] at he
        cases he
  | flag field value =>
    simp only [StreamModule.directive, confFlag] at he
    split_ifs at he <;> cases he
  | padding file =>
    simp only [StreamModule.directive, confPadding] at he
    split_ifs at he
    cases he
  | fallback value alloc compiles =>
    simp only [StreamModule.directive, confFallback] at he
    split_ifs at he <;> cases he
  | fallbackProxyProtocol value =>
    simp only [StreamModule.directive, confFallbackProxyProtocol] at he
    split_ifs at he <;> cases he
  | size field value =>
    simp only [StreamModule.directive, confSize] at he
    split_ifs at he
    · cases he
    · cases hp : env.parseSize value <;> rw [hp] at he <;> cases he
  | msec field value =>
    simp only [StreamModule.directive, confMsec] at he
    split_ifs at he
    · cases he
    · cases hp : env.parseTime value <;> rw [hp] at he <;> cases he
  | num field value =>
    simp only [StreamModule.directive, confNum] at he
    split_ifs at he
    · cases he
    · cases hp : ngxAtoi value with
      | none => rw [hp] at he; cases he
      | some n =>
        rw [hp] at he
        dsimp only at he
        split_ifs at he
        cases he

theorem foldlM_configured (ds : List Directive) : ∀ {done : List Directive} {c : SrvConf},
    Configured env done c →
      ds.foldlM (StreamModule.directive env) c ≠ .error .outOfBounds ∧
      ∀ c', ds.foldlM (StreamModule.directive env) c = .ok c' → Configured env (done ++ ds) c' := by
  induction ds with
  | nil =>
    intro done c h
    refine ⟨nofun, fun c' hc => ?_⟩
    obtain rfl := Except.ok.inj hc
    rwa [List.append_nil]
  | cons d ds ih =>
    intro done c h
    rw [List.foldlM_cons]
    cases hd : StreamModule.directive env c d with
    | error e =>
      refine ⟨fun he => ?_, fun c' hc => ?_⟩
      · obtain rfl := Except.error.inj he
        exact h.in_bounds d hd
      · cases hc
    | ok c₁ =>
      obtain ⟨hbounds, hok⟩ := ih (h.directive hd)
      refine ⟨hbounds, fun c' hc => ?_⟩
      have hrest := hok c' hc
      rwa [List.append_assoc] at hrest

theorem configured_init : Configured env [] {} where
  users := rfl
  count := rfl
  limit := Nat.zero_le _
  fits := Nat.zero_le _
  capacity := .inl rfl
  paddingData := rfl
  num := nofun

/-- Whatever the directives and the answers of the allocator, no write leaves the array of users;
and a block that is accepted has the users in the order of their directives, at most 64, in an array
of 8, 16, 32 or 64 cells or none. -/
theorem configure_users (env : ConfEnv) (ds : List Directive) :
    configure env ds ≠ .error .outOfBounds ∧ ∀ c, configure env ds = .ok c → Configured env ds c :=
  foldlM_configured ds configured_init

theorem checkUser_ok (u : User) (us : List User) :
    checkUser u us = .ok () ↔ ∀ v ∈ us, u.hash ≠ v.hash ∧ u.name ≠ v.name := by
  induction us with
  | nil => simp [checkUser]
  | cons v vs ih =>
    unfold checkUser
    rw [List.forall_mem_cons, ← ih]
    split_ifs with hhash hname
    · exact ⟨nofun, fun h => absurd hhash h.1.1⟩
    · exact ⟨nofun, fun h => absurd hname h.1.2⟩
    · exact ⟨fun h => ⟨⟨hhash, hname⟩, h⟩, fun h => h.2⟩

/-- The loops find every pair of users with one hash or one name. -/
theorem checkUsers_ok (us : List User) :
    checkUsers us = .ok () ↔ us.Pairwise fun u v => u.hash ≠ v.hash ∧ u.name ≠ v.name := by
  induction us with
  | nil => simp [checkUsers]
  | cons u us ih =>
    rw [checkUsers, List.pairwise_cons, ← ih, ← checkUser_ok]
    cases checkUser u us with
    | error e => exact ⟨nofun, fun h => absurd h.1 nofun⟩
    | ok x => exact ⟨fun h => ⟨rfl, h⟩, fun h => h.2⟩

/-- The users are read back as they were declared. -/
theorem Configured.readUsers (h : Configured env ds c) :
    StreamModule.readUsers c = .ok (declared env ds) := by
  have hmap : ((declared env ds).map some).mapM id = some (declared env ds) := by
    induction declared env ds with
    | nil => rfl
    | cons u us ih => simp [List.mapM_cons, ih]
  unfold StreamModule.readUsers
  rw [if_neg (not_lt.mpr h.fits), h.users, hmap]

/-- A scheme that may be sent: of a length that a frame can say, valid, and with its digest. -/
structure GoodPadding (env : ConfEnv) (data md5 : Bytes) : Prop where
  length_pos : 1 ≤ data.length
  length_le : data.length ≤ maxFrameData
  valid : paddingValidate data = some true
  md5 : md5 = env.md5Hex data

theorem paddingRead_good {name data : Bytes} (h : paddingRead env name = .ok data) :
    1 ≤ data.length ∧ data.length ≤ maxFrameData ∧ paddingValidate data = some true := by
  unfold paddingRead at h
  cases hf : env.file name with
  | none => rw [hf] at h; cases h
  | some f =>
    rw [hf] at h
    dsimp only at h
    cases hs : f.size with
    | none => rw [hs] at h; cases h
    | some fsize =>
      rw [hs] at h
      dsimp only at h
      split_ifs at h with hsize
      cases ha : env.palloc fsize.toNat with
      | none => rw [ha] at h; cases h
      | some block =>
        rw [ha] at h
        dsimp only at h
        cases hr : f.read fsize.toNat with
        | none => rw [hr] at h; cases h
        | some bs =>
          rw [hr] at h
          dsimp only at h
          split_ifs at h with hvalid
          obtain rfl := Except.ok.inj h
          have hblock : block.val.length = fsize.toNat := block.property
          have hlen : (bs.take fsize.toNat ++ block.val.drop bs.length).length = fsize.toNat := by
            simp only [List.length_append, List.length_take, List.length_drop, hblock]
            omega
          rw [hlen]
          exact ⟨by omega, by omega, not_not.mp hvalid⟩

theorem defaultPadding_valid : paddingValidate defaultPadding = some true := by decide +kernel

theorem defaultPadding_length : 1 ≤ defaultPadding.length ∧ defaultPadding.length ≤
    maxFrameData := by
  decide +kernel

/-- What is loaded is good, when nothing was loaded before. -/
theorem paddingLoad_good (hnone : c.paddingData = none) (h : paddingLoad env c = .ok c') :
    ∃ data, c'.paddingData = some data ∧ GoodPadding env data c'.paddingMd5 ∧
      ∀ name, c.paddingFile = some name → paddingRead env name = .ok data := by
  unfold paddingLoad at h
  rw [hnone] at h
  cases hfile : c.paddingFile with
  | none =>
    rw [hfile] at h
    cases ha : env.palloc defaultPadding.length with
    | none =>
      rw [ha] at h
      cases h
    | some block =>
      rw [ha] at h
      obtain rfl := Except.ok.inj h
      exact ⟨defaultPadding, rfl, ⟨defaultPadding_length.1, defaultPadding_length.2,
        defaultPadding_valid, rfl⟩, nofun⟩
  | some name =>
    rw [hfile] at h
    dsimp only [Option.isSome_none, Bool.false_eq_true, if_false] at h
    cases hr : paddingRead env name with
    | error e =>
      simp only [hr] at h
      cases h
    | ok data =>
      simp only [hr] at h
      obtain rfl := Except.ok.inj h
      obtain ⟨hpos, hle, hvalid⟩ := paddingRead_good hr
      refine ⟨data, rfl, ⟨hpos, hle, hvalid, rfl⟩, fun name' hname => ?_⟩
      obtain rfl := Option.some.inj hname
      exact hr

/-- What the sessions of a server are given. -/
def Merged.conf (m : Merged) : Conf where
  users := m.users
  paddingMd5 := m.paddingMd5
  paddingData := m.paddingData
  fallback := m.fallback.isSome
  fallbackProxyProtocol := m.fallbackProxyProtocol
  bufferSize := m.size .bufferSize
  maxStreams := m.num .maxStreams
  maxUotStreams := m.num .maxUotStreams
  maxPendingOutput := m.size .maxPendingOutput
  maxPendingInput := m.size .maxPendingInput
  resolver := m.resolver
  writeTimeout := m.msec .writeTimeout
  uotIdleTimeout := m.msec .uotIdleTimeout
  uotPendingPackets := m.num .uotPendingPackets
  uotPendingBytes := m.size .uotPendingBytes

/-- What a configuration that is accepted promises to the sessions. -/
structure Accepted (env : ConfEnv) (ds : List Directive) (m : Merged) : Prop where
  users : m.users = declared env ds
  enabled : m.flag .enabled = true → m.users ≠ [] ∧
    m.users.Pairwise fun u v => u.hash ≠ v.hash ∧ u.name ≠ v.name
  limit : m.users.length ≤ maxUsers
  padding : GoodPadding env m.paddingData m.paddingMd5
  num : ∀ field, 1 ≤ m.num field
  maxStreams : m.num .maxStreams ≤ 65536
  table : (∃ k, htSize m.conf = 2 ^ k) ∧ m.num .maxStreams < htSize m.conf

theorem mergeNum_pos {prev : SrvConf} {pds : List Directive} (hp : Configured env pds prev)
    (hc : Configured env ds c) (field : NumField) : 1 ≤ mergeNum prev c field := by
  have hmerged : 1 ≤ ((c.num field).or (prev.num field)).getD field.default := by
    cases h : c.num field with
    | some n => exact hc.num field n h
    | none =>
      cases h' : prev.num field with
      | some n => exact hp.num field n h'
      | none => cases field <;> decide
  simp only [mergeNum]
  split_ifs
  · decide
  · exact hmerged

theorem mergeNum_maxStreams (prev c : SrvConf) : mergeNum prev c .maxStreams ≤ 65536 := by
  simp only [mergeNum]
  split_ifs with h
  · exact le_refl _
  · exact not_lt.mp fun hlt => h ⟨trivial, hlt⟩

theorem mergeNum_congr {prev : SrvConf} (h : c'.num = c.num) : mergeNum prev c' =
    mergeNum prev c := by
  funext field
  simp only [mergeNum, h]

/-- What the load of the padding scheme leaves as it is. -/
theorem paddingLoad_num {prev : SrvConf} (h : paddingLoad env (inheritPadding prev c) = .ok c') :
    c'.num = c.num ∧ c'.flag = c.flag := by
  have hi : (inheritPadding prev c).num = c.num ∧ (inheritPadding prev c).flag = c.flag := by
    unfold inheritPadding
    split_ifs <;> exact ⟨rfl, rfl⟩
  rw [← hi.1, ← hi.2]
  generalize inheritPadding prev c = d at h
  unfold paddingLoad at h
  split_ifs at h
  · obtain rfl := Except.ok.inj h
    exact ⟨rfl, rfl⟩
  · cases hfile : d.paddingFile with
    | none =>
      rw [hfile] at h
      cases ha : env.palloc defaultPadding.length with
      | none => simp only [ha] at h; cases h
      | some block =>
        simp only [ha] at h
        obtain rfl := Except.ok.inj h
        exact ⟨rfl, rfl⟩
    | some name =>
      rw [hfile] at h
      cases hr : paddingRead env name with
      | error e => simp only [hr] at h; cases h
      | ok data =>
        simp only [hr] at h
        obtain rfl := Except.ok.inj h
        exact ⟨rfl, rfl⟩

/-- Whatever stands in the blocks of a configuration, what the merge accepts is sound: it has the
users in order, distinct by name and by hash when it is enabled, a padding scheme that may be sent,
and a limit of streams that the table of a session has room for. -/
theorem merge_accepted (env : ConfEnv) (core : CoreConf) {pds ds : List Directive}
    {prev c : SrvConf}
    {m : Merged} (hprev : configure env pds = .ok prev) (hc : configure env ds = .ok c)
    (hm : mergeSrvConf env core prev c = .ok m) : Accepted env ds m := by
  have hp := (configure_users env pds).2 prev hprev
  have hd := (configure_users env ds).2 c hc
  simp only [mergeSrvConf, hd.readUsers] at hm
  change (checkEnabled _ _ >>= fun _ => _) = _ at hm
  cases hcheck : checkEnabled
      (((c.flag .enabled).or (prev.flag .enabled)).getD FlagField.enabled.default)
      (declared env ds) with
  | error e =>
    rw [hcheck] at hm
    cases hm
  | ok x =>
    rw [hcheck] at hm
    change (paddingLoad env (inheritPadding prev c) >>= fun loaded => _) = _ at hm
    cases hload : paddingLoad env (inheritPadding prev c) with
    | error e =>
      rw [hload] at hm
      cases hm
    | ok loaded =>
      rw [hload] at hm
      obtain rfl := Except.ok.inj hm
      obtain ⟨hnum, hflag⟩ := paddingLoad_num hload
      have hnone : (inheritPadding prev c).paddingData = none := by
        unfold inheritPadding
        split_ifs
        · exact hp.paddingData
        · exact hd.paddingData
      obtain ⟨data, hdata, hgood, -⟩ := paddingLoad_good hnone hload
      have hstreams : 1 ≤ mergeNum prev loaded .maxStreams := by
        rw [mergeNum_congr hnum]
        exact mergeNum_pos hp hd .maxStreams
      refine ⟨rfl, fun henabled => ?_, ?_, ?_, fun field => ?_, mergeNum_maxStreams prev loaded, ?_⟩
      · have hon : ((c.flag .enabled).or (prev.flag .enabled)).getD FlagField.enabled.default =
            true := by
          rw [← hflag]
          exact henabled
        rw [hon, checkEnabled] at hcheck
        simp only [Bool.not_true, Bool.false_eq_true, if_false] at hcheck
        split_ifs at hcheck with hempty
        exact ⟨hempty, (checkUsers_ok _).mp hcheck⟩
      · have := hd.limit
        rwa [hd.count] at this
      · simpa only [mergedConf, hdata, Option.getD_some] using hgood
      · change 1 ≤ mergeNum prev loaded field
        rw [mergeNum_congr hnum]
        exact mergeNum_pos hp hd field
      · exact htSize_spec hstreams (mergeNum_maxStreams prev loaded)

/-- `stop=1` and `0=5`, a line each. -/
def samplePadding : Bytes := [115, 116, 111, 112, 61, 49, 10, 48, 61, 53, 10]

/-- The digests of `p`, of `q` and of the padding in the file `pad`. -/
def sampleEnv : ConfEnv where
  sha256 password :=
    if password = [112] then
      [20, 141, 233, 197, 167, 164, 77, 25, 229, 108, 217, 174, 26, 85, 75, 246, 120, 71, 175, 176,
        197, 143, 110, 18, 250, 41, 172, 125, 223, 202, 153, 64]
    else
      [142, 53, 194, 205, 59, 246, 100, 27, 219, 14, 32, 80, 183, 105, 50, 203, 178, 230, 3, 74,
        13, 218, 204, 29, 155, 234, 130, 166, 186, 87, 247, 207]
  md5Hex _ :=
    [50, 48, 97, 49, 49, 52, 102, 98, 55, 54, 56, 52, 54, 54, 48, 102, 97, 97, 52, 98, 99, 54,
      101, 98, 49, 97, 51, 53, 97, 100, 100, 54]
  parseSize _ := none
  parseTime _ := none
  file name :=
    if name = [112, 97, 100] then some ⟨some 11, fun n => some (samplePadding.take n)⟩ else none
  palloc n := some ⟨List.replicate n 0, List.length_replicate⟩

/-- A server with the users `u` and `v`, whose passwords are `p` and `q`, a padding file and room
for 100 streams. -/
def sampleDirectives : List Directive :=
  [.flag .enabled [79, 110], .user [117] [112] true, .user [118] [113] true,
    .padding [112, 97, 100], .num .maxStreams [49, 48, 48]]

theorem merge_accepted_sample :
    ∃ c m, configure sampleEnv sampleDirectives = .ok c ∧
      mergeSrvConf sampleEnv {} {} c = .ok m ∧ Accepted sampleEnv sampleDirectives m ∧
        m.conf.maxStreams = 100 ∧ m.conf.paddingData = samplePadding ∧ m.conf.users.length = 2 :=
  ⟨_, _, rfl, rfl,
    merge_accepted sampleEnv {} (show configure sampleEnv [] = .ok {} from rfl) rfl rfl,
    rfl, rfl, rfl⟩

end NgxAnytls.StreamModule
