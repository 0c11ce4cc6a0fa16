import DocGuard.Ordered
import DocGuard.RateLimits

/-!
Server-side sessions: login, authentication, logout and the cleanup of a session
table. A session's stored time lags its last use by less than the refresh interval;
so a session that is used often enough stays alive until its absolute lifetime ends,
no session outlives its lifetimes, and once it is rejected or logged out it never
authenticates again.
-/
namespace DocGuard.Sessions
open DocGuard.Ordered DocGuard.RateLimits
open DocGuard.SlidingWindow (Clock)

/-! ### The store -/

/-- The session durations of `Settings`, with what its validation checks. -/
structure SessionSettings where
  sessionAbsoluteLifetimeSeconds : Int
  sessionInactivityLifetimeSeconds : Int
  sessionRefreshIntervalSeconds : Int
  absolute : 300 ≤ sessionAbsoluteLifetimeSeconds ∧ sessionAbsoluteLifetimeSeconds ≤ 86400
  inactivity : 60 ≤ sessionInactivityLifetimeSeconds ∧ sessionInactivityLifetimeSeconds ≤ 43200
  refresh : 30 ≤ sessionRefreshIntervalSeconds ∧ sessionRefreshIntervalSeconds ≤ 3600
  bounded : sessionInactivityLifetimeSeconds ≤ sessionAbsoluteLifetimeSeconds
  refreshed : sessionRefreshIntervalSeconds < sessionInactivityLifetimeSeconds

/-- `timedelta(seconds=...)`, in microseconds. -/
def timedelta (seconds : Int) : Int := seconds * 1000000

structure OperatorUser where
  id : Text
  username : Text
  passwordHash : Text
  role : Text
  isActive : Bool
  lastLoginAt : Option Int := none

structure ServerSession where
  id : Text
  userId : Text
  tokenHash : Text
  csrfTokenHash : Text
  expiresAt : Int
  lastSeenAt : Int
  revokedAt : Option Int := none
deriving DecidableEq

structure AuthenticatedPrincipal where
  userId : Text
  username : Text
  sessionId : Text
  csrfToken : Text
deriving DecidableEq

/-- `Role.OPERATOR.value` -/
def OPERATOR : Text := lit "OPERATOR"

def MAX_PASSWORD_LENGTH : Nat := 128

/-- `_valid_token` -/
def validToken (value : Text) : Bool :=
  value.length == 43 && value.all fun c => c.isAlphanum || c == '_' || c == '-'

/-- What the service is given: its settings, the digests and the password service. -/
structure Environment (T : Type) [LinearOrder T] where
  settings : SessionSettings
  clock : Clock T
  sha256Text : Text → Text
  deriveCsrfToken : Text → Text
  normalizeUsername : Text → Option Text
  verifyPassword : Text → Text → Bool
  needsRehash : Text → Bool
  hashPassword : Text → Option Text

/-- The tables, and the limiter of failed logins. -/
structure Auth (T : Type) where
  operators : List OperatorUser
  sessions : List ServerSession
  limiter : LoginRateLimiter T

section
variable {T : Type} [LinearOrder T] (env : Environment T)

/-- The row with the token hash, which is unique. -/
def rowOf (sessions : List ServerSession) (tokenHash : Text) : Option ServerSession :=
  sessions.find? fun row => row.tokenHash == tokenHash

def operatorOf (operators : List OperatorUser) (id : Text) : Option OperatorUser := operators.find? fun o => o.id == id

/-- `revoked_at = now`, for the row with the token hash, unless it is revoked already. -/
def revoke (sessions : List ServerSession) (tokenHash : Text) (now : Int) : List ServerSession :=
  sessions.map fun row =>
    if row.tokenHash == tokenHash && row.revokedAt.isNone then {row with revokedAt := some now} else row

/-- `last_seen_at = now`, for the row with the token hash. -/
def touch (sessions : List ServerSession) (tokenHash : Text) (now : Int) : List ServerSession :=
  sessions.map fun row => if row.tokenHash == tokenHash then {row with lastSeenAt := now} else row

/-! ### The operations -/

/-- A call of `login`: what it is given, what the clocks show in it, and what it draws. A drawn token is one that
    `secrets.token_urlsafe(32)` returns. -/
structure LoginAttempt (T : Type) where
  username : Text
  password : Text
  sourceAddress : Text
  previousSessionToken : Option Text
  checkedAt : T
  failedAt : T
  now : Int
  rawToken : Text
  drawn : validToken rawToken = true
  sessionId : Text

inductive LoginOutcome where
  | rateLimited
  | invalidCredentials
  /-- An exception; the transaction is rolled back. -/
  | raised
  | success (principal : AuthenticatedPrincipal) (sessionToken : Text)

/-- The row of a new session. -/
def newSession (attempt : LoginAttempt T) (userId : Text) : ServerSession where
  id := attempt.sessionId
  userId := userId
  tokenHash := env.sha256Text attempt.rawToken
  csrfTokenHash := env.sha256Text (env.deriveCsrfToken attempt.rawToken)
  expiresAt := attempt.now + timedelta env.settings.sessionAbsoluteLifetimeSeconds
  lastSeenAt := attempt.now
  revokedAt := none

/-- The sessions after the previous one is revoked. -/
def withoutPrevious (sessions : List ServerSession) (previous : Option Text) (now : Int) : List ServerSession :=
  match previous with
  | some token => if validToken token then revoke sessions (env.sha256Text token) now else sessions
  | none => sessions

/-- The hash of the password, made again if its parameters have changed. -/
def currentHash (passwordHash password : Text) : Option Text :=
  if env.needsRehash passwordHash then env.hashPassword password else some passwordHash

/-- The transaction of a login whose password is right: the new tables, unless it raises. -/
def createSession (operators : List OperatorUser) (sessions : List ServerSession) (attempt : LoginAttempt T) (id : Text) :
    Option (List OperatorUser × List ServerSession) := do
  let persisted ← operatorOf operators id
  guard (persisted.isActive = true ∧ persisted.role = OPERATOR)
  let passwordHash ← currentHash env persisted.passwordHash attempt.password
  let row := newSession env attempt persisted.id
  guard (∀ other ∈ sessions, other.tokenHash ≠ row.tokenHash ∧ other.id ≠ row.id)
  pure (operators.map fun o =>
      if o.id == id then {o with passwordHash := passwordHash, lastLoginAt := some attempt.now} else o,
    withoutPrevious env sessions attempt.previousSessionToken attempt.now ++ [row])

def login (s : Auth T) (attempt : LoginAttempt T) : LoginOutcome × Auth T :=
  let named := env.normalizeUsername attempt.username
  let canonical := named.getD (lit "invalid-username")
  let checked := s.limiter.check env.clock env.sha256Text attempt.checkedAt attempt.sourceAddress canonical
  let failed := {s with
    limiter := checked.2.recordFailure env.clock env.sha256Text attempt.failedAt attempt.sourceAddress canonical}
  if checked.1 then
    match named.bind fun username => s.operators.find? fun o => o.username == username with
    | none => (.invalidCredentials,failed)
    | some operator =>
      if decide (attempt.password.length ≤ MAX_PASSWORD_LENGTH) &&
          env.verifyPassword operator.passwordHash attempt.password && operator.isActive then
        match createSession env s.operators s.sessions attempt operator.id with
        | none => (.raised,{s with limiter := checked.2})
        | some (operators,sessions) =>
          (.success ⟨operator.id,canonical,attempt.sessionId,env.deriveCsrfToken attempt.rawToken⟩ attempt.rawToken,
            ⟨operators,sessions,checked.2.clearUsername env.sha256Text canonical⟩)
      else (.invalidCredentials,failed)
  else (.rateLimited,{s with limiter := checked.2})

/-- What makes a session invalid. -/
def invalid (now : Int) (csrfToken : Text) (row : ServerSession) (operator : OperatorUser) : Bool :=
  row.revokedAt.isSome || decide (row.expiresAt ≤ now) ||
    decide (timedelta env.settings.sessionInactivityLifetimeSeconds ≤ now - row.lastSeenAt) ||
    !operator.isActive || operator.role != OPERATOR || row.csrfTokenHash != env.sha256Text csrfToken

def authenticate (s : Auth T) (now : Int) (rawToken : Option Text) : Option AuthenticatedPrincipal × Auth T :=
  match rawToken with
  | none => (none,s)
  | some token =>
    if validToken token then
      let tokenHash := env.sha256Text token
      let csrfToken := env.deriveCsrfToken token
      match (rowOf s.sessions tokenHash).bind fun row => (operatorOf s.operators row.userId).map fun o => (row,o) with
      | none => (none,s)
      | some (row,operator) =>
        if invalid env now csrfToken row operator then (none,{s with sessions := revoke s.sessions tokenHash now})
        else
          (some ⟨operator.id,operator.username,row.id,csrfToken⟩,
            if timedelta env.settings.sessionRefreshIntervalSeconds ≤ now - row.lastSeenAt then
              {s with sessions := touch s.sessions tokenHash now}
            else s)
    else (none,s)

def logout (s : Auth T) (now : Int) (rawToken : Option Text) : Auth T :=
  match rawToken with
  | none => s
  | some token => if validToken token then {s with sessions := revoke s.sessions (env.sha256Text token) now} else s

/-- `cleanup_sessions`: the number of expired or revoked sessions, up to the limit; they are deleted if asked. -/
def cleanupSessions (s : Auth T) (now : Int) (limit : Nat) (apply : Bool) : Nat × Auth T :=
  let ids := ((sortedBy (fun row => toLex (row.expiresAt,row.id))
    (s.sessions.filter fun row => decide (row.expiresAt ≤ now) || row.revokedAt.isSome)).take limit).map (·.id)
  (ids.length,if apply then {s with sessions := s.sessions.filter fun row => !ids.contains row.id} else s)

/-- `create_operator`, with the identifier that it draws. -/
def createOperator (s : Auth T) (id username password : Text) : Option (Auth T) := do
  let canonical ← env.normalizeUsername username
  let passwordHash ← env.hashPassword password
  guard (∀ other ∈ s.operators, other.id ≠ id ∧ other.username ≠ canonical)
  pure {s with operators := s.operators ++ [⟨id,canonical,passwordHash,OPERATOR,true,none⟩]}

/-- An operator is deactivated, or activated again; the service itself never does so. -/
def setActive (s : Auth T) (id : Text) (active : Bool) : Auth T :=
  {s with operators := s.operators.map fun o => if o.id == id then {o with isActive := active} else o}

end

/-! ### Runs -/

inductive Call (T : Type) where
  | login (attempt : LoginAttempt T)
  | authenticate (now : Int) (rawToken : Option Text)
  | logout (now : Int) (rawToken : Option Text)
  | cleanupSessions (now : Int) (limit : Nat) (apply : Bool)
  | createOperator (id username password : Text)
  | setActive (id : Text) (active : Bool)

def Call.moments {T : Type} : Call T → List Int
  | .login attempt => [attempt.now]
  | .authenticate now _ => [now]
  | .logout now _ => [now]
  | .cleanupSessions now _ _ => [now]
  | .createOperator .. => []
  | .setActive .. => []

section
variable {T : Type} [LinearOrder T] (env : Environment T)

def step (s : Auth T) : Call T → Auth T
  | .login attempt => (login env s attempt).2
  | .authenticate now rawToken => (authenticate env s now rawToken).2
  | .logout now rawToken => logout env s now rawToken
  | .cleanupSessions now limit apply => (cleanupSessions s now limit apply).2
  | .createOperator id username password => (createOperator env s id username password).getD s
  | .setActive id active => setActive s id active

def run (s : Auth T) (calls : List (Call T)) : Auth T := calls.foldl (step env) s

/-- The service before its first call. -/
def start (perMinute perHour : Int) : Auth T := ⟨[],[],LoginRateLimiter.start perMinute perHour⟩

/-! ### What a call does to the tables -/

/-- A login leaves the tables as they are, or adds the session that it reports. -/
theorem login_cases (s : Auth T) (attempt : LoginAttempt T) :
    ((∀ principal token, (login env s attempt).1 ≠ .success principal token) ∧
      (login env s attempt).2.operators = s.operators ∧ (login env s attempt).2.sessions = s.sessions) ∨
    ∃ operator operators sessions, operator ∈ s.operators ∧
      createSession env s.operators s.sessions attempt operator.id = some (operators,sessions) ∧
      (login env s attempt).1 = .success ⟨operator.id,operator.username,attempt.sessionId,
        env.deriveCsrfToken attempt.rawToken⟩ attempt.rawToken ∧
      (login env s attempt).2.operators = operators ∧ (login env s attempt).2.sessions = sessions := by
  simp only [login]
  split
  · split
    · exact .inl ⟨(fun _ _ same => by cases same),rfl,rfl⟩
    · rename_i operator found
      split
      · split
        · exact .inl ⟨(fun _ _ same => by cases same),rfl,rfl⟩
        · rename_i operators sessions created
          obtain ⟨username,named,listed⟩ := Option.bind_eq_some_iff.mp found
          have same := List.find?_some listed
          refine .inr ⟨operator,operators,sessions,List.mem_of_find?_eq_some listed,created,?_,rfl,rfl⟩
          rw [named, Option.getD_some, ← eq_of_beq same]
      · exact .inl ⟨(fun _ _ same => by cases same),rfl,rfl⟩
  · exact .inl ⟨(fun _ _ same => by cases same),rfl,rfl⟩

variable {env} in
theorem createSession_some {operators operators' : List OperatorUser} {sessions sessions' : List ServerSession}
    {attempt : LoginAttempt T} {id : Text}
    (created : createSession env operators sessions attempt id = some (operators',sessions')) :
    ∃ persisted passwordHash, operatorOf operators id = some persisted ∧ persisted.isActive = true ∧
      persisted.role = OPERATOR ∧
      (∀ other ∈ sessions, other.tokenHash ≠ env.sha256Text attempt.rawToken ∧ other.id ≠ attempt.sessionId) ∧
      operators' = (operators.map fun o =>
        if o.id == id then {o with passwordHash := passwordHash, lastLoginAt := some attempt.now} else o) ∧
      sessions' = withoutPrevious env sessions attempt.previousSessionToken attempt.now ++
        [newSession env attempt persisted.id] := by
  simp only [createSession,Option.bind_eq_bind,Option.bind_eq_some_iff,Option.guard_eq_some',Option.pure_def,
    Option.some.injEq,Prod.mk.injEq,exists_const] at created
  obtain ⟨persisted,found,⟨active,role⟩,passwordHash,_,distinct,rfl,rfl⟩ := created
  exact ⟨persisted,passwordHash,found,active,role,distinct,rfl,rfl⟩

/-- An authentication leaves the tables as they are, revokes the session, or returns its principal. -/
theorem authenticate_cases (s : Auth T) (now : Int) (token : Text) (valid : validToken token = true) :
    (authenticate env s now (some token) = (none,s) ∧
      ∀ row, rowOf s.sessions (env.sha256Text token) = some row → operatorOf s.operators row.userId = none) ∨
    ∃ row operator, rowOf s.sessions (env.sha256Text token) = some row ∧ operatorOf s.operators row.userId = some operator ∧
      ((invalid env now (env.deriveCsrfToken token) row operator = true ∧ authenticate env s now (some token) =
          (none,{s with sessions := revoke s.sessions (env.sha256Text token) now})) ∨
        (invalid env now (env.deriveCsrfToken token) row operator = false ∧ authenticate env s now (some token) =
          (some ⟨operator.id,operator.username,row.id,env.deriveCsrfToken token⟩,
            if timedelta env.settings.sessionRefreshIntervalSeconds ≤ now - row.lastSeenAt then
              {s with sessions := touch s.sessions (env.sha256Text token) now}
            else s))) := by
  simp only [authenticate,if_pos valid]
  cases found : rowOf s.sessions (env.sha256Text token) with
  | none => exact .inl ⟨rfl,nofun⟩
  | some row =>
    cases owner : operatorOf s.operators row.userId with
    | none =>
      refine .inl ⟨?_,fun other same => ?_⟩
      · simp only [Option.bind_some,owner,Option.map_none]
      · cases same
        exact owner
    | some operator =>
      refine .inr ⟨row,operator,rfl,owner,?_⟩
      simp only [Option.bind_some,owner,Option.map_some]
      cases invalid env now (env.deriveCsrfToken token) row operator
      · exact .inr ⟨rfl,rfl⟩
      · exact .inl ⟨rfl,rfl⟩

/-- An operator is added with a new identifier, or nothing changes. -/
theorem createOperator_cases (s : Auth T) (id username password : Text) :
    (createOperator env s id username password).getD s = s ∨ ∃ operator : OperatorUser,
      (∀ other ∈ s.operators, other.id ≠ operator.id) ∧
      (createOperator env s id username password).getD s = {s with operators := s.operators ++ [operator]} := by
  cases created : createOperator env s id username password with
  | none => exact .inl rfl
  | some s' =>
    simp only [createOperator,Option.bind_eq_bind,Option.bind_eq_some_iff,Option.guard_eq_some',Option.pure_def,
      Option.some.injEq,exists_const] at created
    obtain ⟨canonical,_,passwordHash,_,distinct,rfl⟩ := created
    exact .inr ⟨⟨id,canonical,passwordHash,OPERATOR,true,none⟩,fun other member => (distinct other member).1,rfl⟩

variable {env}

/-! ### What holds of every row with a token hash -/

/-- The property holds of the rows with the token hash. -/
def Every (tokenHash : Text) (P : ServerSession → Prop) (sessions : List ServerSession) : Prop :=
  ∀ row ∈ sessions, row.tokenHash = tokenHash → P row

/-- Revocation keeps the property. -/
def Lasting (P : ServerSession → Prop) : Prop := ∀ row now, P row → P {row with revokedAt := some now}

section
variable {tokenHash : Text} {P : ServerSession → Prop} {sessions : List ServerSession}

theorem every_map {f : ServerSession → ServerSession} (hashes : ∀ row, (f row).tokenHash = row.tokenHash)
    (keeps : ∀ row, row.tokenHash = tokenHash → P row → P (f row)) (every : Every tokenHash P sessions) :
    Every tokenHash P (sessions.map f) := by
  intro row member same
  obtain ⟨old,listed,rfl⟩ := List.mem_map.mp member
  rw [hashes] at same
  exact keeps old same (every old listed same)

theorem revoke_hash (row : ServerSession) (other : Text) (now : Int) :
    (if row.tokenHash == other && row.revokedAt.isNone then {row with revokedAt := some now} else row).tokenHash =
      row.tokenHash := by
  split <;> rfl

theorem touch_hash (row : ServerSession) (other : Text) (now : Int) :
    (if row.tokenHash == other then {row with lastSeenAt := now} else row).tokenHash = row.tokenHash := by
  split <;> rfl

theorem every_revoke (lasting : Lasting P) (every : Every tokenHash P sessions) (other : Text) (now : Int) :
    Every tokenHash P (revoke sessions other now) := by
  refine every_map (fun row => revoke_hash row other now) (fun row _ holds => ?_) every
  split
  · exact lasting row now holds
  · exact holds

theorem every_revoked (now : Int) : Every tokenHash (fun row => row.revokedAt.isSome = true) (revoke sessions tokenHash now) := by
  intro row member same
  obtain ⟨old,_,rfl⟩ := List.mem_map.mp member
  rw [revoke_hash] at same
  by_cases revoked : old.revokedAt.isNone = true
  · rw [if_pos (by rw [same, revoked]; simp)]
    rfl
  · rw [if_neg (by simp [revoked])]
    simpa [Option.isSome_iff_ne_none] using revoked

theorem every_touch {now : Int} {other : Text}
    (touched : other = tokenHash → ∀ row, P row → P {row with lastSeenAt := now}) (every : Every tokenHash P sessions) :
    Every tokenHash P (touch sessions other now) := by
  refine every_map (fun row => touch_hash row other now) (fun row same holds => ?_) every
  split
  · rename_i matching
    exact touched ((eq_of_beq matching).symm.trans same) row holds
  · exact holds

theorem every_withoutPrevious (lasting : Lasting P) (every : Every tokenHash P sessions) (previous : Option Text) (now : Int) :
    Every tokenHash P (withoutPrevious env sessions previous now) := by
  cases previous with
  | none => exact every
  | some token =>
    rw [withoutPrevious]
    split
    · exact every_revoke lasting every _ now
    · exact every

end

/-- The call does not draw a token with the hash. -/
def Fresh (env : Environment T) (tokenHash : Text) (call : Call T) : Prop :=
  ∀ attempt, call = .login attempt → env.sha256Text attempt.rawToken ≠ tokenHash

/-- What holds of the rows of a session still does after a call, unless the call uses the session. -/
theorem every_step {tokenHash : Text} {P : ServerSession → Prop} (lasting : Lasting P) {s : Auth T} {call : Call T}
    (fresh : Fresh env tokenHash call)
    (used : ∀ now token, call = .authenticate now (some token) → env.sha256Text token = tokenHash →
      (authenticate env s now (some token)).1.isSome = true → ∀ row, P row → P {row with lastSeenAt := now})
    (every : Every tokenHash P s.sessions) : Every tokenHash P (step env s call).sessions := by
  cases call with
  | login attempt =>
    rcases login_cases env s attempt with ⟨_,_,same⟩ | ⟨operator,operators,sessions,_,created,_,_,added⟩
    · rw [step, same]
      exact every
    · obtain ⟨persisted,_,_,_,_,_,_,rfl⟩ := createSession_some created
      rw [step, added]
      intro row member same
      rcases List.mem_append.mp member with before | last
      · exact every_withoutPrevious lasting every _ _ row before same
      · rw [List.mem_singleton.mp last] at same
        exact absurd same (fresh attempt rfl)
  | authenticate now rawToken =>
    cases rawToken with
    | none => exact every
    | some token =>
      by_cases valid : validToken token = true
      · rcases authenticate_cases env s now token valid with ⟨same,_⟩ | ⟨row,operator,_,_,⟨_,same⟩ | ⟨_,same⟩⟩
        · rw [step, same]
          exact every
        · rw [step, same]
          exact every_revoke lasting every _ now
        · rw [step, same]
          have answered := used now token rfl
          rw [same] at answered
          split
          · exact every_touch (fun hash => answered hash rfl) every
          · exact every
      · rw [step, authenticate, if_neg valid]
        exact every
  | logout now rawToken =>
    cases rawToken with
    | none => exact every
    | some token =>
      rw [step, logout]
      split
      · exact every_revoke lasting every _ now
      · exact every
  | cleanupSessions now limit apply =>
    rw [step, cleanupSessions]
    split
    · exact fun row member => every row (List.mem_of_mem_filter member)
    · exact every
  | createOperator id username password =>
    rcases createOperator_cases env s id username password with same | ⟨_,_,added⟩
    · rw [step, same]
      exact every
    · rw [step, added]
      exact every
  | setActive id active => exact every

/-! ### Rows and their operators -/

/-- The identifiers of the sessions and of their operators. -/
def owners (sessions : List ServerSession) : List (Text × Text) := sessions.map fun row => (row.id,row.userId)

/-- Sessions and operators have distinct identifiers, and each session belongs to an operator. -/
structure Sound (s : Auth T) : Prop where
  users : (s.operators.map (·.id)).Nodup
  linked : ∀ owner ∈ owners s.sessions, ∃ operator, operatorOf s.operators owner.2 = some operator
  distinct : ((owners s.sessions).map Prod.fst).Nodup

theorem owners_revoke (sessions : List ServerSession) (tokenHash : Text) (now : Int) :
    owners (revoke sessions tokenHash now) = owners sessions := by
  rw [owners, revoke, List.map_map]
  refine List.map_congr_left fun row _ => ?_
  rw [Function.comp_apply]
  split <;> rfl

theorem owners_touch (sessions : List ServerSession) (tokenHash : Text) (now : Int) :
    owners (touch sessions tokenHash now) = owners sessions := by
  rw [owners, touch, List.map_map]
  refine List.map_congr_left fun row _ => ?_
  rw [Function.comp_apply]
  split <;> rfl

theorem owners_withoutPrevious (sessions : List ServerSession) (previous : Option Text) (now : Int) :
    owners (withoutPrevious env sessions previous now) = owners sessions := by
  cases previous with
  | none => rfl
  | some token =>
    rw [withoutPrevious]
    split
    · exact owners_revoke _ _ _
    · rfl

theorem operatorOf_map {f : OperatorUser → OperatorUser} (ids : ∀ o, (f o).id = o.id) (operators : List OperatorUser)
    (id : Text) : operatorOf (operators.map f) id = (operatorOf operators id).map f := by
  rw [operatorOf, List.find?_map, operatorOf]
  have same : ((fun o => o.id == id) ∘ f) = fun o => o.id == id := funext fun o => by
    rw [Function.comp_apply, ids]
  rw [same]

theorem linked_map {f : OperatorUser → OperatorUser} (ids : ∀ o, (f o).id = o.id) {operators : List OperatorUser} {id : Text}
    (linked : ∃ operator, operatorOf operators id = some operator) :
    ∃ operator, operatorOf (operators.map f) id = some operator := by
  obtain ⟨operator,found⟩ := linked
  exact ⟨f operator,by rw [operatorOf_map ids, found, Option.map_some]⟩

omit [LinearOrder T] in
/-- Whatever leaves the identifiers of sessions and operators leaves the tables sound. -/
theorem sound_of_owners {s s' : Auth T} (sound : Sound s) (same : owners s'.sessions = owners s.sessions)
    (operators : s'.operators = s.operators) : Sound s' := by
  refine ⟨?_,?_,?_⟩
  · rw [operators]
    exact sound.users
  · rw [same, operators]
    exact sound.linked
  · rw [same]
    exact sound.distinct

theorem users_map {f : OperatorUser → OperatorUser} (ids : ∀ o, (f o).id = o.id) (operators : List OperatorUser) :
    (operators.map f).map (·.id) = operators.map (·.id) := by
  rw [List.map_map]
  exact List.map_congr_left fun o _ => ids o

theorem sound_login {s : Auth T} (sound : Sound s) (attempt : LoginAttempt T) : Sound (login env s attempt).2 := by
  rcases login_cases env s attempt with ⟨_,operators,sessions⟩ | ⟨operator,operators,sessions,_,created,_,users,added⟩
  · exact sound_of_owners sound (by rw [sessions]) operators
  · obtain ⟨persisted,passwordHash,found,_,_,distinct,rfl,rfl⟩ := createSession_some created
    have ids : ∀ o : OperatorUser, (if o.id == operator.id then
        {o with passwordHash := passwordHash, lastLoginAt := some attempt.now} else o).id = o.id := fun o => by
      split <;> rfl
    have joined : owners (login env s attempt).2.sessions = owners s.sessions ++ [(attempt.sessionId,persisted.id)] := by
      rw [added, owners, List.map_append]
      exact congrArg (· ++ _) (owners_withoutPrevious s.sessions _ _)
    refine ⟨?_,fun owner member => ?_,?_⟩
    · rw [users, users_map ids]
      exact sound.users
    · rw [users]
      rw [joined] at member
      rcases List.mem_append.mp member with before | last
      · exact linked_map ids (sound.linked owner before)
      · rw [List.mem_singleton.mp last]
        have same := List.find?_some found
        refine linked_map ids ⟨persisted,?_⟩
        change operatorOf s.operators persisted.id = some persisted
        rw [eq_of_beq same]
        exact found
    · rw [joined, List.map_append]
      refine List.nodup_append.mpr ⟨sound.distinct,List.nodup_singleton _,fun id before other last same => ?_⟩
      rw [List.map_singleton, List.mem_singleton] at last
      obtain ⟨owner,listed,rfl⟩ := List.mem_map.mp before
      obtain ⟨row,member,rfl⟩ := List.mem_map.mp listed
      exact (distinct row member).2 (same.trans last)

theorem sound_step {s : Auth T} (sound : Sound s) (call : Call T) : Sound (step env s call) := by
  cases call with
  | login attempt => exact sound_login sound attempt
  | authenticate now rawToken =>
    cases rawToken with
    | none => exact sound
    | some token =>
      by_cases valid : validToken token = true
      · rcases authenticate_cases env s now token valid with ⟨same,_⟩ | ⟨row,operator,_,_,⟨_,same⟩ | ⟨_,same⟩⟩
        · rw [step, same]
          exact sound
        · rw [step, same]
          exact sound_of_owners sound (owners_revoke _ _ _) rfl
        · rw [step, same]
          split
          · exact sound_of_owners sound (owners_touch _ _ _) rfl
          · exact sound
      · rw [step, authenticate, if_neg valid]
        exact sound
  | logout now rawToken =>
    cases rawToken with
    | none => exact sound
    | some token =>
      rw [step, logout]
      split
      · exact sound_of_owners sound (owners_revoke _ _ _) rfl
      · exact sound
  | cleanupSessions now limit apply =>
    rw [step, cleanupSessions]
    split
    · have part (kept : ServerSession → Bool) : (owners (s.sessions.filter kept)).Sublist (owners s.sessions) :=
        List.filter_sublist.map _
      exact ⟨sound.users,fun owner member => sound.linked owner ((part _).subset member),sound.distinct.sublist ((part _).map _)⟩
    · exact sound
  | createOperator id username password =>
    rcases createOperator_cases env s id username password with same | ⟨operator,new,added⟩
    · rw [step, same]
      exact sound
    · rw [step, added]
      refine ⟨?_,fun owner member => ?_,sound.distinct⟩
      · rw [List.map_append]
        refine List.nodup_append.mpr ⟨sound.users,List.nodup_singleton _,fun id before other last same => ?_⟩
        obtain ⟨old,listed,rfl⟩ := List.mem_map.mp before
        exact new old listed (same.trans (List.mem_singleton.mp last))
      obtain ⟨found,here⟩ := sound.linked owner member
      exact ⟨found,by rw [operatorOf, List.find?_append, ← operatorOf, here]; rfl⟩
  | setActive id active =>
    have ids : ∀ o : OperatorUser, (if o.id == id then {o with isActive := active} else o).id = o.id := fun o => by
      split <;> rfl
    refine ⟨?_,fun owner member => linked_map ids (sound.linked owner member),sound.distinct⟩
    rw [step, setActive, users_map ids]
    exact sound.users

theorem sound_run {s : Auth T} (sound : Sound s) (calls : List (Call T)) : Sound (run env s calls) := by
  induction calls generalizing s with
  | nil => exact sound
  | cons call rest ih => exact ih (sound_step sound call)

omit [LinearOrder T] in
theorem sound_start (perMinute perHour : Int) : Sound (start perMinute perHour : Auth T) :=
  ⟨List.nodup_nil,nofun,List.nodup_nil⟩

/-! ### Sessions that are over -/

/-- The sessions with the token hash are revoked. -/
def Dead (s : Auth T) (tokenHash : Text) : Prop := Every tokenHash (fun row => row.revokedAt.isSome = true) s.sessions

theorem rowOf_some {sessions : List ServerSession} {tokenHash : Text} {row : ServerSession}
    (found : rowOf sessions tokenHash = some row) : row ∈ sessions ∧ row.tokenHash = tokenHash := by
  have same := List.find?_some found
  exact ⟨List.mem_of_find?_eq_some found,eq_of_beq same⟩

/-- A row that makes every session invalid is never authenticated. -/
theorem rejected_of_invalid {s : Auth T} {now : Int} {token : Text}
    (bad : ∀ row operator, row ∈ s.sessions → row.tokenHash = env.sha256Text token →
      invalid env now (env.deriveCsrfToken token) row operator = true) : (authenticate env s now (some token)).1 = none := by
  by_cases valid : validToken token = true
  · rcases authenticate_cases env s now token valid with ⟨same,_⟩ | ⟨row,operator,found,_,⟨_,same⟩ | ⟨good,_⟩⟩
    · rw [same]
    · rw [same]
    · obtain ⟨member,hash⟩ := rowOf_some found
      rw [bad row operator member hash] at good
      cases good
  · rw [authenticate, if_neg valid]

theorem dead_rejects {s : Auth T} {token : Text} (dead : Dead s (env.sha256Text token)) (now : Int) :
    (authenticate env s now (some token)).1 = none := by
  refine rejected_of_invalid fun row operator member hash => ?_
  rw [invalid, dead row member hash]
  rfl

theorem revokedAt_lasting : Lasting fun row => row.revokedAt.isSome = true := fun _ _ _ => rfl

theorem dead_step {s : Auth T} {token : Text} (dead : Dead s (env.sha256Text token)) {call : Call T}
    (fresh : Fresh env (env.sha256Text token) call) : Dead (step env s call) (env.sha256Text token) := by
  refine every_step revokedAt_lasting fresh (fun now other _ same answered => ?_) dead
  have rejects : (authenticate env s now (some other)).1 = none := dead_rejects (same ▸ dead) now
  rw [rejects] at answered
  cases answered

theorem dead_run {s : Auth T} {token : Text} (dead : Dead s (env.sha256Text token)) {calls : List (Call T)}
    (fresh : ∀ call ∈ calls, Fresh env (env.sha256Text token) call) : Dead (run env s calls) (env.sha256Text token) := by
  induction calls generalizing s with
  | nil => exact dead
  | cons call rest ih =>
    exact ih (dead_step dead (fresh call List.mem_cons_self)) fun other member => fresh other (List.mem_cons_of_mem _ member)

/-- A rejected call ends the session. -/
theorem rejected_dead {s : Auth T} (sound : Sound s) {now : Int} {token : Text} (valid : validToken token = true)
    (rejected : (authenticate env s now (some token)).1 = none) :
    Dead (authenticate env s now (some token)).2 (env.sha256Text token) := by
  rcases authenticate_cases env s now token valid with ⟨same,alone⟩ | ⟨row,operator,_,_,⟨_,same⟩ | ⟨_,same⟩⟩
  · rw [same]
    intro row member hash
    cases found : rowOf s.sessions (env.sha256Text token) with
    | none => exact absurd (beq_iff_eq.mpr hash) (List.find?_eq_none.mp found row member)
    | some first =>
      obtain ⟨operator,linked⟩ := sound.linked (first.id,first.userId) (List.mem_map_of_mem (rowOf_some found).1)
      rw [alone first found] at linked
      cases linked
  · rw [same]
    exact every_revoked now
  · rw [same] at rejected
    cases rejected

theorem logout_dead (s : Auth T) (now : Int) {token : Text} (valid : validToken token = true) :
    Dead (logout env s now (some token)) (env.sha256Text token) := by
  rw [logout, if_pos valid]
  exact every_revoked now

/-! ### Sessions that run out -/

/-- The sessions with the token hash expire at a moment, and were stored as seen no later than another one. -/
def Bounded (s : Auth T) (tokenHash : Text) (expiry last : Int) : Prop :=
  Every tokenHash (fun row => row.expiresAt = expiry ∧ row.lastSeenAt ≤ last) s.sessions

/-- A session is rejected once its absolute lifetime or the inactivity lifetime since its last use is over. -/
theorem bounded_rejects {s : Auth T} {token : Text} {expiry last now : Int}
    (bounded : Bounded s (env.sha256Text token) expiry last)
    (late : expiry ≤ now ∨ last + timedelta env.settings.sessionInactivityLifetimeSeconds ≤ now) :
    (authenticate env s now (some token)).1 = none := by
  refine rejected_of_invalid fun row operator member hash => ?_
  obtain ⟨expires,seen⟩ := bounded row member hash
  have reason : decide (row.expiresAt ≤ now) = true ∨
      decide (timedelta env.settings.sessionInactivityLifetimeSeconds ≤ now - row.lastSeenAt) = true := by
    rw [decide_eq_true_eq, decide_eq_true_eq]
    omega
  rw [invalid]
  rcases reason with expired | inactive
  · simp [expired]
  · simp [inactive]

/-- The last use of the session after a call: the moment of the call, if it returned the session's principal. -/
def use (env : Environment T) (tokenHash : Text) (s : Auth T) (last : Int) : Call T → Int
  | .authenticate now (some token) =>
    if env.sha256Text token = tokenHash ∧ (authenticate env s now (some token)).1.isSome = true then now else last
  | _ => last

/-- The last successful use of the session in a run. -/
def lastUse (env : Environment T) (tokenHash : Text) : Auth T → Int → List (Call T) → Int
  | _,last,[] => last
  | s,last,call :: rest => lastUse env tokenHash (step env s call) (use env tokenHash s last call) rest

variable (env) in
theorem use_bounds (tokenHash : Text) (s : Auth T) {last : Int} (call : Call T) (later : ∀ now ∈ call.moments, last ≤ now) :
    last ≤ use env tokenHash s last call ∧ (use env tokenHash s last call = last ∨ use env tokenHash s last call ∈ call.moments) := by
  unfold use
  split
  · split
    · exact ⟨later _ List.mem_cons_self,.inr List.mem_cons_self⟩
    · exact ⟨le_rfl,.inl rfl⟩
  · exact ⟨le_rfl,.inl rfl⟩

theorem bounded_step {s : Auth T} {tokenHash : Text} {expiry last : Int} (bounded : Bounded s tokenHash expiry last)
    {call : Call T} (fresh : Fresh env tokenHash call) (later : ∀ now ∈ call.moments, last ≤ now) :
    Bounded (step env s call) tokenHash expiry (use env tokenHash s last call) := by
  obtain ⟨grows,_⟩ := use_bounds env tokenHash s call later
  refine every_step (fun _ _ kept => kept) fresh (fun now token asked same answered row holds => ⟨holds.1,?_⟩) ?_
  · rw [asked, use, if_pos ⟨same,answered⟩]
  · exact fun row member hash => ⟨(bounded row member hash).1,(bounded row member hash).2.trans grows⟩

/-- The moments of the calls, from a first one on. -/
def Forward (first : Int) (calls : List (Call T)) : Prop := (first :: calls.flatMap Call.moments).Pairwise (· ≤ ·)

omit [LinearOrder T] in
theorem forward_cons {first : Int} {call : Call T} {rest : List (Call T)} (forward : Forward first (call :: rest)) :
    (∀ now ∈ call.moments, first ≤ now) ∧ Forward first rest ∧ ∀ now ∈ call.moments, Forward now rest := by
  obtain ⟨least,ordered⟩ := List.pairwise_cons.mp forward
  rw [List.flatMap_cons] at least ordered
  obtain ⟨_,orderedRest,before⟩ := List.pairwise_append.mp ordered
  refine ⟨fun now member => least now (List.mem_append_left _ member),?_,fun now member => ?_⟩
  · exact List.pairwise_cons.mpr ⟨fun now member => least now (List.mem_append_right _ member),orderedRest⟩
  · exact List.pairwise_cons.mpr ⟨before now member,orderedRest⟩

theorem forward_use {s : Auth T} {tokenHash : Text} {last : Int} {call : Call T} {rest : List (Call T)}
    (forward : Forward last (call :: rest)) : Forward (use env tokenHash s last call) rest := by
  obtain ⟨later,stays,moves⟩ := forward_cons forward
  rcases (use_bounds env tokenHash s call later).2 with same | inside
  · rw [same]
    exact stays
  · exact moves _ inside

theorem bounded_run {s : Auth T} {tokenHash : Text} {expiry last : Int} (bounded : Bounded s tokenHash expiry last)
    {calls : List (Call T)} (fresh : ∀ call ∈ calls, Fresh env tokenHash call) (forward : Forward last calls) :
    Bounded (run env s calls) tokenHash expiry (lastUse env tokenHash s last calls) := by
  induction calls generalizing s last with
  | nil => exact bounded
  | cons call rest ih =>
    have stepped := bounded_step bounded (fresh call List.mem_cons_self) (forward_cons forward).1
    exact ih stepped (fun other member => fresh other (List.mem_cons_of_mem _ member)) (forward_use forward)

/-! ### Sessions that stay alive -/

/-- The session of a principal and a token is not revoked, was stored as seen less than a refresh interval before its last
    use, and belongs to an active operator. -/
structure Alive (env : Environment T) (s : Auth T) (token : Text) (principal : AuthenticatedPrincipal) (expiry last : Int) :
    Prop where
  row : ∃ row, rowOf s.sessions (env.sha256Text token) = some row ∧ row.id = principal.sessionId ∧
    row.userId = principal.userId ∧ row.csrfTokenHash = env.sha256Text (env.deriveCsrfToken token) ∧
    row.expiresAt = expiry ∧ row.lastSeenAt ≤ last ∧
    last - row.lastSeenAt < timedelta env.settings.sessionRefreshIntervalSeconds ∧ row.revokedAt = none
  operator : ∃ operator, operatorOf s.operators principal.userId = some operator ∧ operator.username = principal.username ∧
    operator.isActive = true ∧ operator.role = OPERATOR
  csrf : principal.csrfToken = env.deriveCsrfToken token

/-- A call other than a use that leaves the session alone: it does not revoke it or deactivate its operator, and a cleanup
    comes before the session expires. -/
def Spares (env : Environment T) (tokenHash userId : Text) (expiry : Int) : Call T → Prop
  | .login attempt => ∀ token, attempt.previousSessionToken = some token → env.sha256Text token ≠ tokenHash
  | .authenticate _ rawToken => ∀ token, rawToken = some token → env.sha256Text token ≠ tokenHash
  | .logout _ rawToken => ∀ token, rawToken = some token → env.sha256Text token ≠ tokenHash
  | .cleanupSessions now _ _ => now < expiry
  | .createOperator .. => True
  | .setActive id active => id = userId → active = true

theorem rowOf_map {f : ServerSession → ServerSession} (hashes : ∀ row, (f row).tokenHash = row.tokenHash)
    (sessions : List ServerSession) (tokenHash : Text) : rowOf (sessions.map f) tokenHash = (rowOf sessions tokenHash).map f := by
  rw [rowOf, List.find?_map, rowOf]
  have same : ((fun row => row.tokenHash == tokenHash) ∘ f) = fun row => row.tokenHash == tokenHash := funext fun row => by
    rw [Function.comp_apply, hashes]
  rw [same]

/-- A use of the session no later than the inactivity lifetime, less a refresh interval, after its last one. -/
theorem alive_use {s : Auth T} {token : Text} {principal : AuthenticatedPrincipal} {expiry last now : Int}
    (valid : validToken token = true) (alive : Alive env s token principal expiry last) (later : last ≤ now)
    (soon : now - last ≤ timedelta env.settings.sessionInactivityLifetimeSeconds -
      timedelta env.settings.sessionRefreshIntervalSeconds) (unexpired : now < expiry) :
    (authenticate env s now (some token)).1 = some principal ∧
      Alive env (authenticate env s now (some token)).2 token principal expiry now := by
  obtain ⟨row,found,session,user,csrf,expires,seen,lag,unrevoked⟩ := alive.row
  obtain ⟨operator,owner,username,active,role⟩ := alive.operator
  have good : invalid env now (env.deriveCsrfToken token) row operator = false := by
    have fresh : ¬ timedelta env.settings.sessionInactivityLifetimeSeconds ≤ now - row.lastSeenAt := by omega
    simp [invalid,unrevoked,expires,unexpired,fresh,active,role,csrf]
  have id := List.find?_some owner
  rcases authenticate_cases env s now token valid with ⟨_,alone⟩ | ⟨other,user',found',owner',cases'⟩
  · rw [← user, alone row found] at owner
    cases owner
  · rw [found] at found'
    cases found'
    rw [user, owner] at owner'
    cases owner'
    rcases cases' with ⟨bad,_⟩ | ⟨_,same⟩
    · rw [good] at bad
      cases bad
    · rw [same]
      constructor
      · obtain ⟨userId,name,sessionId,csrfToken⟩ := principal
        have derived : csrfToken = env.deriveCsrfToken token := alive.csrf
        rw [derived, eq_of_beq id, username, session]
      · split
        · refine ⟨⟨{row with lastSeenAt := now},?_,session,user,csrf,expires,le_rfl,?_,unrevoked⟩,alive.operator,alive.csrf⟩
          · have hash := (rowOf_some found).2
            rw [touch, rowOf_map fun row => touch_hash row _ now, found, Option.map_some, if_pos (beq_iff_eq.mpr hash)]
          · have positive := env.settings.refresh.1
            simp only [timedelta]
            omega
        · exact ⟨⟨row,found,session,user,csrf,expires,seen.trans later,by omega,unrevoked⟩,alive.operator,alive.csrf⟩

/-- Other sessions' rows are changed only. -/
theorem rowOf_others {f : ServerSession → ServerSession} (hashes : ∀ row, (f row).tokenHash = row.tokenHash)
    {sessions : List ServerSession} {tokenHash : Text} {row : ServerSession} (found : rowOf sessions tokenHash = some row)
    (kept : f row = row) : rowOf (sessions.map f) tokenHash = some row := by
  rw [rowOf_map hashes, found, Option.map_some, kept]

theorem rowOf_revoke {sessions : List ServerSession} {tokenHash other : Text} {row : ServerSession}
    (found : rowOf sessions tokenHash = some row) (different : other ≠ tokenHash) (now : Int) :
    rowOf (revoke sessions other now) tokenHash = some row := by
  refine rowOf_others (fun row => revoke_hash row other now) found (if_neg fun both => different ?_)
  rw [← (rowOf_some found).2]
  exact (eq_of_beq (Bool.and_eq_true_iff.mp both).1).symm

theorem rowOf_touch {sessions : List ServerSession} {tokenHash other : Text} {row : ServerSession}
    (found : rowOf sessions tokenHash = some row) (different : other ≠ tokenHash) (now : Int) :
    rowOf (touch sessions other now) tokenHash = some row := by
  refine rowOf_others (fun row => touch_hash row other now) found (if_neg fun matching => different ?_)
  rw [← (rowOf_some found).2]
  exact (eq_of_beq matching).symm

/-- What holds of an alive session is told by its row and its operator. -/
theorem alive_of_rows {s s' : Auth T} {token : Text} {principal : AuthenticatedPrincipal} {expiry last : Int}
    (alive : Alive env s token principal expiry last)
    (rows : ∀ row, rowOf s.sessions (env.sha256Text token) = some row → row.revokedAt = none → row.expiresAt = expiry →
      rowOf s'.sessions (env.sha256Text token) = some row)
    (operators : ∀ o, operatorOf s.operators principal.userId = some o → o.isActive = true →
      ∃ o', operatorOf s'.operators principal.userId = some o' ∧ o'.username = o.username ∧ o'.isActive = true ∧
        o'.role = o.role) : Alive env s' token principal expiry last := by
  obtain ⟨row,found,session,user,csrf,expires,seen,lag,unrevoked⟩ := alive.row
  obtain ⟨operator,owner,username,active,role⟩ := alive.operator
  obtain ⟨operator',owner',username',active',role'⟩ := operators operator owner active
  exact ⟨⟨row,rows row found unrevoked expires,session,user,csrf,expires,seen,lag,unrevoked⟩,
    ⟨operator',owner',username'.trans username,active',role'.trans role⟩,alive.csrf⟩

omit [LinearOrder T] in
theorem row_of_id {s : Auth T} (sound : Sound s) {row other : ServerSession} (member : row ∈ s.sessions)
    (member' : other ∈ s.sessions) (same : row.id = other.id) : row = other := by
  have distinct : (s.sessions.map (·.id)).Nodup := by
    have ids := sound.distinct
    rwa [owners, List.map_map] at ids
  exact List.inj_on_of_nodup_map distinct member member' same

/-- An element that is kept is found where it was. -/
theorem find?_filter_kept {α : Type} {p q : α → Bool} {xs : List α} {x : α} (found : xs.find? p = some x)
    (kept : q x = true) : (xs.filter q).find? p = some x := by
  obtain ⟨holds,before,after,rfl,none⟩ := List.find?_eq_some_iff_append.mp found
  rw [List.filter_append, List.filter_cons_of_pos kept]
  refine List.find?_eq_some_iff_append.mpr ⟨holds,before.filter q,after.filter q,rfl,fun y member => ?_⟩
  exact none y (List.mem_of_mem_filter member)

/-- A call that spares the session leaves it alive. -/
theorem alive_spared {s : Auth T} (sound : Sound s) {token : Text} {principal : AuthenticatedPrincipal} {expiry last : Int}
    (alive : Alive env s token principal expiry last) {call : Call T}
    (spares : Spares env (env.sha256Text token) principal.userId expiry call) :
    Alive env (step env s call) token principal expiry last := by
  have same (o : OperatorUser) (owner : operatorOf s.operators principal.userId = some o) (active : o.isActive = true) :
      ∃ o', operatorOf s.operators principal.userId = some o' ∧ o'.username = o.username ∧ o'.isActive = true ∧
        o'.role = o.role := ⟨o,owner,rfl,active,rfl⟩
  cases call with
  | login attempt =>
    rcases login_cases env s attempt with ⟨_,operators,sessions⟩ | ⟨operator,operators,sessions,_,created,_,users,added⟩
    · refine alive_of_rows alive (fun row found _ _ => ?_) fun o owner active => ?_
      · rw [step, sessions]
        exact found
      · rw [step, operators]
        exact same o owner active
    · obtain ⟨persisted,passwordHash,_,_,_,_,rfl,rfl⟩ := createSession_some created
      refine alive_of_rows alive (fun row found _ _ => ?_) fun o owner active => ?_
      · rw [step, added, rowOf, List.find?_append]
        have kept : rowOf (withoutPrevious env s.sessions attempt.previousSessionToken attempt.now)
            (env.sha256Text token) = some row := by
          cases previous : attempt.previousSessionToken with
          | none => exact found
          | some other =>
            rw [withoutPrevious]
            split
            · exact rowOf_revoke found (spares other previous) _
            · exact found
        rw [← rowOf, kept]
        rfl
      · rw [step, users, operatorOf_map (fun o => by split <;> rfl), owner]
        refine ⟨_,rfl,?_,?_,?_⟩
        · dsimp only
          split <;> rfl
        · dsimp only
          split <;> exact active
        · dsimp only
          split <;> rfl
  | authenticate now rawToken =>
    cases rawToken with
    | none => exact alive
    | some other =>
      by_cases valid : validToken other = true
      · have different := spares other rfl
        rcases authenticate_cases env s now other valid with ⟨result,_⟩ | ⟨_,_,_,_,⟨_,result⟩ | ⟨_,result⟩⟩
        · rw [step, result]
          exact alive
        · rw [step, result]
          exact alive_of_rows alive (fun row found _ _ => rowOf_revoke found different now) same
        · rw [step, result]
          split
          · exact alive_of_rows alive (fun row found _ _ => rowOf_touch found different now) same
          · exact alive
      · rw [step, authenticate, if_neg valid]
        exact alive
  | logout now rawToken =>
    cases rawToken with
    | none => exact alive
    | some other =>
      rw [step, logout]
      split
      · exact alive_of_rows alive (fun row found _ _ => rowOf_revoke found (spares other rfl) now) same
      · exact alive
  | cleanupSessions now limit apply =>
    rw [step, cleanupSessions]
    split
    · refine alive_of_rows alive (fun row found unrevoked expires => ?_) same
      refine find?_filter_kept found ?_
      rw [Bool.not_eq_true', ← Bool.not_eq_true, List.contains_iff_mem]
      intro doomed
      obtain ⟨other,listed,id⟩ := List.mem_map.mp doomed
      obtain ⟨member,outdated⟩ := List.mem_filter.mp (mem_sortedBy.mp (List.mem_of_mem_take listed))
      have equal := row_of_id sound member (rowOf_some found).1 id
      rw [equal, unrevoked, expires] at outdated
      have early : ¬ expiry ≤ now := not_le.mpr spares
      simp [early] at outdated
    · exact alive
  | createOperator id username password =>
    rcases createOperator_cases env s id username password with result | ⟨operator,_,added⟩
    · rw [step, result]
      exact alive
    · rw [step, added]
      refine alive_of_rows alive (fun row found _ _ => found) fun o owner active => ⟨o,?_,rfl,active,rfl⟩
      rw [operatorOf, List.find?_append, ← operatorOf, owner]
      rfl
  | setActive id active =>
    refine alive_of_rows alive (fun row found _ _ => found) fun o owner activeNow => ?_
    rw [step, setActive, operatorOf_map (fun o => by split <;> rfl), owner]
    refine ⟨_,rfl,?_,?_,?_⟩
    · dsimp only
      split <;> rfl
    · dsimp only
      split
      · rename_i matching
        have own := List.find?_some owner
        exact spares ((eq_of_beq matching).symm.trans (eq_of_beq own))
      · exact activeNow
    · dsimp only
      split <;> rfl

/-- The moments at which the token is used. -/
def uses (token : Text) (calls : List (Call T)) : List Int :=
  calls.flatMap fun
    | .authenticate now (some other) => if other = token then [now] else []
    | _ => []

/-- Each call is a use of the session, or spares it. -/
def Undisturbed (env : Environment T) (token userId : Text) (expiry : Int) (calls : List (Call T)) : Prop :=
  ∀ call ∈ calls, (∃ now, call = .authenticate now (some token)) ∨ Spares env (env.sha256Text token) userId expiry call

/-- No two uses are further apart than the inactivity lifetime less a refresh interval. -/
def Frequent (env : Environment T) (moments : List Int) : Prop :=
  moments.IsChain fun earlier later => later - earlier ≤ timedelta env.settings.sessionInactivityLifetimeSeconds -
    timedelta env.settings.sessionRefreshIntervalSeconds

theorem uses_spared {token userId : Text} {expiry : Int} {call : Call T} (spares : Spares env (env.sha256Text token) userId expiry call)
    (rest : List (Call T)) : uses token (call :: rest) = uses token rest := by
  rw [uses, List.flatMap_cons]
  split
  · rename_i now other
    rw [if_neg fun same => spares other rfl (congrArg env.sha256Text same)]
    rfl
  · rfl

/-- A session that is used often enough authenticates until it expires. -/
theorem alive_answers {s : Auth T} (sound : Sound s) {token : Text} {principal : AuthenticatedPrincipal} {expiry last now : Int}
    (valid : validToken token = true) (alive : Alive env s token principal expiry last) {calls : List (Call T)}
    (forward : Forward last (calls ++ [.authenticate now (some token)])) (unexpired : now < expiry)
    (undisturbed : Undisturbed env token principal.userId expiry calls)
    (frequent : Frequent env (last :: uses token calls ++ [now])) :
    (authenticate env (run env s calls) now (some token)).1 = some principal := by
  induction calls generalizing s last with
  | nil =>
    have soon := (List.isChain_pair.mp frequent)
    exact (alive_use valid alive ((forward_cons forward).1 now List.mem_cons_self) soon unexpired).1
  | cons call rest ih =>
    obtain ⟨later,stays,moves⟩ := forward_cons forward
    have others : Undisturbed env token principal.userId expiry rest := fun other member =>
      undisturbed other (List.mem_cons_of_mem _ member)
    rcases undisturbed call List.mem_cons_self with ⟨moment,rfl⟩ | spares
    · have onward := moves moment List.mem_cons_self
      have before : moment ≤ now := by
        exact (List.pairwise_cons.mp onward).1 now
          (List.mem_flatMap.mpr ⟨.authenticate now (some token),List.mem_append_right rest List.mem_cons_self,List.mem_cons_self⟩)
      have used : uses token (.authenticate moment (some token) :: rest) = moment :: uses token rest := by
        rw [uses, List.flatMap_cons]
        simp only [if_pos]
        rfl
      rw [used] at frequent
      obtain ⟨soon,chain⟩ := List.isChain_cons_cons.mp frequent
      have next := alive_use valid alive (later moment List.mem_cons_self) soon (before.trans_lt unexpired)
      exact ih (sound_step sound (.authenticate moment (some token))) next.2 onward others chain
    · rw [uses_spared spares] at frequent
      exact ih (sound_step sound call) (alive_spared sound alive spares) stays others frequent

/-! ### A session from its login on -/

/-- A login that succeeds creates the only session with its token, and it is alive. -/
theorem login_created {s : Auth T} (sound : Sound s) {attempt : LoginAttempt T} {principal : AuthenticatedPrincipal} {token : Text}
    (created : (login env s attempt).1 = .success principal token) : validToken token = true ∧
      Alive env (login env s attempt).2 token principal
        (attempt.now + timedelta env.settings.sessionAbsoluteLifetimeSeconds) attempt.now ∧
      Bounded (login env s attempt).2 (env.sha256Text token)
        (attempt.now + timedelta env.settings.sessionAbsoluteLifetimeSeconds) attempt.now := by
  rcases login_cases env s attempt with ⟨failed,_,_⟩ | ⟨operator,operators,sessions,member,session,outcome,users,added⟩
  · exact absurd created (failed principal token)
  rw [outcome] at created
  cases created
  obtain ⟨persisted,passwordHash,found,active,role,distinct,rfl,rfl⟩ := createSession_some session
  have id := List.find?_some found
  have same : persisted = operator :=
    List.inj_on_of_nodup_map sound.users (List.mem_of_find?_eq_some found) member (eq_of_beq id)
  subst same
  have none : Every (env.sha256Text attempt.rawToken) (fun _ => False)
      (withoutPrevious env s.sessions attempt.previousSessionToken attempt.now) :=
    every_withoutPrevious (fun _ _ holds => holds) (fun row listed hash => (distinct row listed).1 hash) _ _
  have first : rowOf (login env s attempt).2.sessions (env.sha256Text attempt.rawToken) =
      some (newSession env attempt persisted.id) := by
    have absent : (withoutPrevious env s.sessions attempt.previousSessionToken attempt.now).find?
        (fun row => row.tokenHash == env.sha256Text attempt.rawToken) = Option.none :=
      List.find?_eq_none.mpr fun row listed hash => none row listed (eq_of_beq hash)
    rw [added, rowOf, List.find?_append, absent, Option.none_or, List.find?_singleton]
    exact if_pos (beq_iff_eq.mpr rfl)
  refine ⟨attempt.drawn,⟨⟨_,first,rfl,rfl,rfl,rfl,le_rfl,?_,rfl⟩,?_,rfl⟩,?_⟩
  · have positive := env.settings.refresh.1
    simp only [newSession,timedelta]
    omega
  · rw [users, operatorOf_map (fun o => by split <;> rfl), found]
    refine ⟨_,rfl,?_,?_,?_⟩
    · dsimp only
      split <;> rfl
    · dsimp only
      split <;> exact active
    · dsimp only
      split <;> exact role
  · rw [Bounded, added]
    intro row listed hash
    rcases List.mem_append.mp listed with before | last
    · exact absurd hash (none row before)
    · rw [List.mem_singleton.mp last]
      exact ⟨rfl,le_rfl⟩

/-- The call ends the session: a logout, or a use that is rejected. -/
def Ends (env : Environment T) (s : Auth T) (token : Text) (call : Call T) : Prop :=
  (∃ now, call = .logout now (some token)) ∨
    ∃ now, call = .authenticate now (some token) ∧ (authenticate env s now (some token)).1 = none

theorem ends_dead {s : Auth T} (sound : Sound s) {token : Text} (valid : validToken token = true) {call : Call T}
    (ends : Ends env s token call) : Dead (step env s call) (env.sha256Text token) := by
  rcases ends with ⟨now,rfl⟩ | ⟨now,rfl,rejected⟩
  · exact logout_dead s now valid
  · exact rejected_dead sound valid rejected

end

/-- Of every session and every run after its login: a session that is used often enough authenticates until it expires; it
    never does once it has expired, or once the inactivity lifetime since its last use is over; and after a logout or a
    rejected use it never does again. -/
theorem session_timeouts_exact {T : Type} [LinearOrder T] (env : Environment T) (perMinute perHour : Int)
    (earlier : List (Call T)) (attempt : LoginAttempt T) (principal : AuthenticatedPrincipal) (token : Text) (s : Auth T)
    (created : login env (run env (start perMinute perHour) earlier) attempt = (.success principal token,s))
    (calls : List (Call T)) (fresh : ∀ call ∈ calls, Fresh env (env.sha256Text token) call) :
    (∀ now, Forward attempt.now (calls ++ [.authenticate now (some token)]) →
      now < attempt.now + timedelta env.settings.sessionAbsoluteLifetimeSeconds →
      Undisturbed env token principal.userId (attempt.now + timedelta env.settings.sessionAbsoluteLifetimeSeconds) calls →
      Frequent env (attempt.now :: uses token calls ++ [now]) →
      (authenticate env (run env s calls) now (some token)).1 = some principal) ∧
    (∀ now, Forward attempt.now (calls ++ [.authenticate now (some token)]) →
      (attempt.now + timedelta env.settings.sessionAbsoluteLifetimeSeconds ≤ now ∨
        lastUse env (env.sha256Text token) s attempt.now calls +
          timedelta env.settings.sessionInactivityLifetimeSeconds ≤ now) →
      (authenticate env (run env s calls) now (some token)).1 = none) ∧
    ∀ before call after, calls = before ++ call :: after → Ends env (run env s before) token call →
      ∀ now, (authenticate env (run env s calls) now (some token)).1 = none := by
  have sound : Sound (run env (start perMinute perHour) earlier) := sound_run (sound_start perMinute perHour) earlier
  have result : (login env (run env (start perMinute perHour) earlier) attempt).1 = .success principal token := by
    rw [created]
  obtain ⟨valid,alive,bounded⟩ := login_created sound result
  have soundAfter : Sound (login env (run env (start perMinute perHour) earlier) attempt).2 := sound_login sound attempt
  rw [created] at alive bounded soundAfter
  refine ⟨fun now forward unexpired undisturbed frequent => ?_,fun now forward late => ?_,fun before call after parts ends now => ?_⟩
  · exact alive_answers soundAfter valid alive forward unexpired undisturbed frequent
  · have earlierForward : Forward attempt.now calls := by
      refine List.Pairwise.sublist ?_ forward
      rw [List.flatMap_append]
      exact (List.sublist_append_left _ _).cons_cons _
    exact bounded_rejects (bounded_run bounded fresh earlierForward) late
  · have dead := ends_dead (sound_run soundAfter before) valid ends
    have joined : run env s calls = run env (step env (run env s before) call) after := by
      rw [parts, run, List.foldl_append]
      rfl
    rw [joined]
    exact dead_rejects (dead_run dead fun other member => fresh other (by rw [parts]; simp [member])) now

/-- An environment with the default durations, in which every password is right. -/
def plainEnvironment : Environment Int where
  settings := ⟨28800,1800,300,by decide,by decide,by decide,by decide,by decide⟩
  clock := seconds
  sha256Text := id
  deriveCsrfToken := id
  normalizeUsername := some
  verifyPassword _ _ := true
  needsRehash _ := false
  hashPassword := some

def plainToken : Text := List.replicate 43 'a'

def plainAttempt : LoginAttempt Int :=
  ⟨['u'],['p'],['a'],none,0,0,0,plainToken,by decide,['s']⟩

def plainPrincipal : AuthenticatedPrincipal := ⟨['o'],['u'],['s'],plainToken⟩

/-- The service with one operator. -/
def plainCalls : List (Call Int) := [.createOperator ['o'] ['u'] ['p']]

def otherToken : Text := List.replicate 43 'b'

/-- A login of the same operator on another device. -/
def otherAttempt : LoginAttempt Int :=
  ⟨['u'],['p'],['b'],none,2000,2000,2000000000,otherToken,by decide,['r']⟩

/-- Two uses of the session, with the other login, its logout and a cleanup. -/
def busyCalls : List (Call Int) :=
  [.authenticate 1400000000 (some plainToken),.login otherAttempt,.authenticate 2100000000 (some otherToken),
    .authenticate 2800000000 (some plainToken),.logout 2850000000 (some otherToken),
    .cleanupSessions 2900000000 1000 true]

def busyService : Auth Int :=
  (login plainEnvironment (run plainEnvironment (start 5 50) plainCalls) plainAttempt).2

theorem busyCalls_fresh : ∀ call ∈ busyCalls, Fresh plainEnvironment plainToken call := by
  intro call member attempt same
  simp only [busyCalls,List.mem_cons,List.not_mem_nil,or_false] at member
  rcases member with rfl | rfl | rfl | rfl | rfl | rfl <;> cases same
  decide

theorem busyCalls_undisturbed : Undisturbed plainEnvironment plainToken ['o'] 28800000000 busyCalls := by
  intro call member
  simp only [busyCalls,List.mem_cons,List.not_mem_nil,or_false] at member
  rcases member with rfl | rfl | rfl | rfl | rfl | rfl
  · exact .inl ⟨_,rfl⟩
  · exact .inr fun token given => by cases given
  · exact .inr fun token given => by cases given; decide
  · exact .inl ⟨_,rfl⟩
  · exact .inr fun token given => by cases given; decide
  · exact .inr (by decide : (2900000000 : Int) < 28800000000)

/-- The session authenticates 20 minutes after its last use, not after 30, and never after its logout. -/
theorem busy_session :
    (authenticate plainEnvironment (run plainEnvironment busyService busyCalls) 4000000000 (some plainToken)).1 =
      some plainPrincipal ∧
    (authenticate plainEnvironment (run plainEnvironment busyService busyCalls) 4600000000 (some plainToken)).1 = none ∧
    (authenticate plainEnvironment (run plainEnvironment busyService (busyCalls ++ [.logout 3000000000 (some plainToken)]))
      3000000000 (some plainToken)).1 = none := by
  have left : ∀ call ∈ busyCalls ++ [.logout 3000000000 (some plainToken)], Fresh plainEnvironment plainToken call := by
    intro call member
    rcases List.mem_append.mp member with before | logout
    · exact busyCalls_fresh call before
    · intro attempt same
      rw [List.mem_singleton.mp logout] at same
      cases same
  obtain ⟨answers,rejects,_⟩ := session_timeouts_exact plainEnvironment 5 50 plainCalls plainAttempt plainPrincipal
    plainToken busyService rfl busyCalls busyCalls_fresh
  refine ⟨answers 4000000000 ?_ (by decide) busyCalls_undisturbed ?_,rejects 4600000000 ?_ (.inr ?_),?_⟩
  · unfold Forward
    decide
  · unfold Frequent
    decide
  · unfold Forward
    decide
  · decide +kernel
  · exact (session_timeouts_exact plainEnvironment 5 50 plainCalls plainAttempt plainPrincipal plainToken busyService rfl _
      left).2.2 busyCalls (.logout 3000000000 (some plainToken)) [] rfl (.inl ⟨_,rfl⟩) 3000000000

end DocGuard.Sessions
