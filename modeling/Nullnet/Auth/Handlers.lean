import Nullnet.Auth.Db

/-! # The handlers of logins, sessions and user updates

The handlers of `http_server/auth`, as programs of calls: `login_handler` and `mfa_verify_handler`,
`refresh_handler` and `logout_handler`, and `update_handler` of the administration of users. -/

namespace Nullnet.Auth

open Nullnet.Lib

abbrev Handler := Prog Call Reply

/-! ## The calls of the handlers -/

namespace Repo

abbrev isLocked (username : String) : Handler (Reply (Call.isLocked username)) :=
  Prog.perform (Call.isLocked username)

abbrev recordFailure (username : String) : Handler (Reply (Call.recordFailure username)) :=
  Prog.perform (Call.recordFailure username)

abbrev clear (username : String) : Handler (Reply (Call.clear username)) :=
  Prog.perform (Call.clear username)

abbrev byUsername (username : String) : Handler (Reply (Call.byUsername username)) :=
  Prog.perform (Call.byUsername username)

abbrev byId (id : String) : Handler (Reply (Call.byId id)) :=
  Prog.perform (Call.byId id)

abbrev countAdmins : Handler (Reply Call.countAdmins) :=
  Prog.perform Call.countAdmins

abbrev update (id : String) (username : Option String) (role : Option Role)
    (passwordHash : Option String) : Handler (Reply (Call.update id username role passwordHash)) :=
  Prog.perform (Call.update id username role passwordHash)

abbrev clearMfa (id : String) : Handler (Reply (Call.clearMfa id)) :=
  Prog.perform (Call.clearMfa id)

abbrev forUser (id : String) : Handler (Reply (Call.forUser id)) :=
  Prog.perform (Call.forUser id)

abbrev setForUser (id : String) (scopes : List String) :
    Handler (Reply (Call.setForUser id scopes)) :=
  Prog.perform (Call.setForUser id scopes)

abbrev insert (userId : String) : Handler (Reply (Call.insert userId)) :=
  Prog.perform (Call.insert userId)

abbrev findActive (hash : ℕ) : Handler (Reply (Call.findActive hash)) :=
  Prog.perform (Call.findActive hash)

abbrev revoke (hash : ℕ) : Handler (Reply (Call.revoke hash)) :=
  Prog.perform (Call.revoke hash)

abbrev revokeAllForUser (userId : String) : Handler (Reply (Call.revokeAllForUser userId)) :=
  Prog.perform (Call.revokeAllForUser userId)

abbrev rotate (oldHash : ℕ) (userId : String) : Handler (Reply (Call.rotate oldHash userId)) :=
  Prog.perform (Call.rotate oldHash userId)

abbrev verifyCode (userId secret code : String) :
    Handler (Reply (Call.verifyCode userId secret code)) :=
  Prog.perform (Call.verifyCode userId secret code)

abbrev issueAccessToken (userId : String) (role : Role) (scopes : List String) :
    Handler (Reply (Call.issueAccessToken userId role scopes)) :=
  Prog.perform (Call.issueAccessToken userId role scopes)

abbrev issueMfaPendingToken (userId : String) :
    Handler (Reply (Call.issueMfaPendingToken userId)) :=
  Prog.perform (Call.issueMfaPendingToken userId)

abbrev verifyMfaPendingToken (token : String) :
    Handler (Reply (Call.verifyMfaPendingToken token)) :=
  Prog.perform (Call.verifyMfaPendingToken token)

end Repo

/-! ## Responses -/

/-- What a response does to the session cookies. -/
inductive Cookies
  | kept
  | cleared
  | session (accessToken : String) (refreshToken : ℕ)
  deriving DecidableEq

inductive Body
  | empty
  | error (text : String)
  | login (mfaToken : Option String)
  deriving DecidableEq

structure Response where
  status : ℕ
  cookies : Cookies
  body : Body
  deriving DecidableEq

def rejected (status : ℕ) (error : String) : Response := ⟨status, .kept, .error error⟩

def unauthorized (error : String) : Response := rejected 401 error

def internalError (error : String) : Response := rejected 500 error

def noContent : Response := ⟨204, .kept, .empty⟩

/-- The response with the session cookies cleared. -/
def Response.clearingCookies (r : Response) : Response := { r with cookies := .cleared }

/-! ## Sessions -/

/-- `role_and_scopes`: an administrator has all scopes, without any rows. -/
def roleAndScopes (userId : String) (role : Role) : Handler (Role × List String) :=
  match role with
  | .admin => return (.admin, [])
  | .user => return (.user, (← Repo.forUser userId).getD [])

/-- `issue_session`: the access token and the refresh token. -/
def issueSession (userId : String) (role : Role) (scopes : List String) :
    Handler (Option (String × ℕ)) := do
  match ← Repo.issueAccessToken userId role scopes with
  | none => return none
  | some access =>
    match ← Repo.insert userId with
    | none => return none
    | some refresh => return some (access, refresh)

/-- The end of both login handlers: a session for the user. -/
def establishSession (userId : String) (user : User) : Handler Response := do
  let (role, scopes) ← roleAndScopes userId user.role
  match ← issueSession userId role scopes with
  | some (access, refresh) => return ⟨200, .session access refresh, .login none⟩
  | none => return internalError "failed to establish session"

/-- The answer to an account that is locked. -/
def tooManyAttempts : Response := rejected 429 "too many failed attempts — try again later"

/-- A failure is recorded, and the request is turned down. -/
def failLogin (username error : String) : Handler Response := do
  let _ ← Repo.recordFailure username
  return unauthorized error

def loginHandler (prim : Primitives) (username password : String) : Handler Response := do
  match ← Repo.isLocked username with
  | some true => return tooManyAttempts
  | none => return internalError "lockout check failed"
  | some false =>
    match ← Repo.byUsername username with
    | none => return internalError "user lookup failed"
    | some none => failLogin username "invalid username or password"
    | some (some (id, user)) =>
      if prim.verifyPassword password user.passwordHash then
        let _ ← Repo.clear username
        if user.mfaConfirmedAt.isSome then
          match ← Repo.issueMfaPendingToken id with
          | some token => return ⟨200, .kept, .login (some token)⟩
          | none => return internalError "failed to issue mfa challenge"
        else establishSession id user
      else failLogin username "invalid username or password"

/-- `mfa_verify_handler`, once the account is known not to be locked. -/
def verifyMfa (prim : Primitives) (userId : String) (user : User) (code : String) :
    Handler Response :=
  match user.mfaSecretEnc with
  | none => return internalError "mfa not configured"
  | some secretEnc =>
    match prim.decrypt secretEnc with
    | none => return internalError "failed to decrypt mfa secret"
    | some secret => do
      if ← Repo.verifyCode userId secret code then
        let _ ← Repo.clear user.username
        establishSession userId user
      else failLogin user.username "invalid code"

def mfaVerifyHandler (prim : Primitives) (mfaToken code : String) : Handler Response := do
  match ← Repo.verifyMfaPendingToken mfaToken with
  | none => return unauthorized "invalid or expired mfa challenge"
  | some userId =>
    match ← Repo.byId userId with
    | none => return internalError "user lookup failed"
    | some none => return unauthorized "user not found"
    | some (some user) =>
      match ← Repo.isLocked user.username with
      | some true => return tooManyAttempts
      | none => return internalError "lockout check failed"
      | some false => verifyMfa prim userId user code

/-- `refresh_handler`, for a token that was found. -/
def rotateToken (hash : ℕ) (active : RefreshToken) : Handler Response := do
  match ← Repo.byId active.userId with
  | none => return internalError "user lookup failed"
  | some none => return (unauthorized "user no longer exists").clearingCookies
  | some (some user) =>
    let (role, scopes) ← roleAndScopes active.userId user.role
    match ← Repo.issueAccessToken active.userId role scopes with
    | none => return internalError "failed to issue access token"
    | some access =>
      match ← Repo.rotate hash active.userId with
      | none => return internalError "failed to rotate refresh token"
      | some refresh => return ⟨204, .session access refresh, .empty⟩

def refreshHandler (cookie : Option ℕ) : Handler Response :=
  match cookie with
  | none => return (unauthorized "missing refresh token").clearingCookies
  | some hash => do
    match ← Repo.findActive hash with
    | none => return internalError "refresh lookup failed"
    | some none => return (unauthorized "refresh token invalid or expired").clearingCookies
    | some (some active) => rotateToken hash active

def logoutHandler (cookie : Option ℕ) : Handler Response :=
  match cookie with
  | none => return noContent.clearingCookies
  | some hash => do
    let _ ← Repo.revoke hash
    return noContent.clearingCookies

/-! ## User updates -/

structure AuthContext where
  userId : String
  role : Role
  deriving DecidableEq

def Scope.ALL : List String :=
  ["certificates:read", "certificates:write", "config:read", "config:write", "sessions:read",
    "sessions:write", "nodes:read", "events:read"]

/-- `parse_scopes`: the first scope that is unknown turns the request down. -/
def parseScopes (raw : List String) : Except Response (List String) :=
  match raw.find? fun s => s ∉ Scope.ALL with
  | some s => .error (rejected 400 ("unknown scope '" ++ s ++ "'"))
  | none => .ok raw

def MIN_PASSWORD_LEN : ℕ := 8

def validateUsername (prim : Primitives) (raw : String) : Except Response String :=
  let username := prim.trim raw
  if username = "" then .error (rejected 400 "username is required") else .ok username

def validatePassword (password : String) : Except Response Unit :=
  if password.length < MIN_PASSWORD_LEN then
    .error (rejected 400 "password must be at least 8 characters")
  else .ok ()

structure UpdateUserReq where
  username : Option String
  password : Option String
  currentPassword : Option String
  role : Option String
  scopes : Option (List String)
  resetMfa : Bool
  mfaCode : Option String
  deriving DecidableEq

/-- The last part of `update_handler`: a new role or password ends the sessions of the user. -/
def revokeSessions (id : String) (role : Option Role) (passwordHash : Option String) :
    Handler Response := do
  if role.isSome || passwordHash.isSome then
    let _ ← Repo.revokeAllForUser id
    return noContent
  else return noContent

/-- The one-time code that a user shows who resets their own secret. -/
def proveMfa (prim : Primitives) (id : String) (target : User) (mfaCode : Option String) :
    Handler (Except Response Unit) :=
  match target.mfaSecretEnc with
  | none => return .error (rejected 400 "mfa is not enabled")
  | some secretEnc =>
    match prim.decrypt secretEnc with
    | none => return .error (internalError "failed to decrypt mfa secret")
    | some secret =>
      match mfaCode with
      | none => return .error (rejected 401 "current mfa code required to reset your own mfa")
      | some code => do
        if ← Repo.verifyCode id secret code then return .ok ()
        else return .error (rejected 401 "current mfa code required to reset your own mfa")

/-- An administrator who resets the secret of someone else needs no proof. -/
def mfaProof (prim : Primitives) (ctx : AuthContext) (id : String) (target : User)
    (mfaCode : Option String) : Handler (Except Response Unit) :=
  if id = ctx.userId then proveMfa prim id target mfaCode else return .ok ()

/-- The part of `update_handler` that resets the secret, and what comes after. -/
def resetMfa (prim : Primitives) (ctx : AuthContext) (id : String) (target : User)
    (req : UpdateUserReq) (role : Option Role) (passwordHash : Option String) :
    Handler Response := do
  if req.resetMfa then
    match ← mfaProof prim ctx id target req.mfaCode with
    | .error resp => return resp
    | .ok () =>
      match ← Repo.clearMfa id with
      | none => return internalError "user updated, but failed to reset mfa"
      | some () => revokeSessions id role passwordHash
  else revokeSessions id role passwordHash

/-- The part of `update_handler` that sets the scopes, and what comes after. -/
def updateScopes (prim : Primitives) (ctx : AuthContext) (id : String) (target : User)
    (req : UpdateUserReq) (role : Option Role) (passwordHash : Option String) :
    Handler Response :=
  match req.scopes with
  | none => resetMfa prim ctx id target req role passwordHash
  | some raw =>
    match parseScopes raw with
    | .error resp => return resp
    | .ok scopes => do
      match ← Repo.setForUser id scopes with
      | none => return internalError "user updated, but failed to update scopes"
      | some () => resetMfa prim ctx id target req role passwordHash

/-- The part of `update_handler` that changes the row, and what comes after. -/
def commitUpdate (prim : Primitives) (ctx : AuthContext) (id : String) (target : User)
    (req : UpdateUserReq) (username : Option String) (role : Option Role)
    (passwordHash : Option String) : Handler Response := do
  match ← Repo.update id username role passwordHash with
  | none => return internalError "failed to update user"
  | some () => updateScopes prim ctx id target req role passwordHash

def newUsername (prim : Primitives) (req : UpdateUserReq) : Except Response (Option String) :=
  match req.username with
  | none => .ok none
  | some raw => (validateUsername prim raw).map some

def newRole (req : UpdateUserReq) : Except Response (Option Role) :=
  match req.role with
  | none => .ok none
  | some raw =>
    match Role.parse raw with
    | some role => .ok (some role)
    | none => .error (rejected 400 "invalid role")

/-- A new password; users who change their own one show the current one. -/
def hashPassword (prim : Primitives) (isSelf : Bool) (target : User)
    (currentPassword : Option String) (password : String) : Except Response (Option String) :=
  if isSelf && !currentPassword.any fun cur => prim.verifyPassword cur target.passwordHash then
    .error (rejected 401 "current password required to change your own password")
  else
    match prim.hashPassword password with
    | some hash => .ok (some hash)
    | none => .error (internalError "failed to hash password")

/-- The password that a request sets; a blank one keeps the current one. -/
def newPassword (prim : Primitives) (isSelf : Bool) (target : User) (req : UpdateUserReq) :
    Except Response (Option String) :=
  match req.password.filter (· ≠ "") with
  | none => .ok none
  | some password =>
    match validatePassword password with
    | .error resp => .error resp
    | .ok () => hashPassword prim isSelf target req.currentPassword password

def guardLastAdmin (target : User) (role : Option Role) : Handler (Except Response Unit) :=
  if target.role = .admin && role.any (· ≠ .admin) then do
    match ← Repo.countAdmins with
    | none => return .error (internalError "failed to check admin count")
    | some n =>
      if n ≤ 1 then return .error (rejected 400 "cannot demote the last remaining admin")
      else return .ok ()
  else return .ok ()

def updateHandler (prim : Primitives) (ctx : AuthContext) (id : String) (req : UpdateUserReq) :
    Handler Response := do
  if ctx.role ≠ .admin then return rejected 403 "admin role required"
  else
    match ← Repo.byId id with
    | none => return internalError "user lookup failed"
    | some none => return rejected 404 "user not found"
    | some (some target) =>
      match newUsername prim req, newRole req with
      | .error resp, _ => return resp
      | .ok _, .error resp => return resp
      | .ok username, .ok role =>
        match ← guardLastAdmin target role with
        | .error resp => return resp
        | .ok () =>
          match newPassword prim (id = ctx.userId) target req with
          | .error resp => return resp
          | .ok passwordHash => commitUpdate prim ctx id target req username role passwordHash

/-! ## The service -/

inductive Request
  | login (username password : String)
  | mfaVerify (mfaToken code : String)
  | refresh (cookie : Option ℕ)
  | logout (cookie : Option ℕ)
  | updateUser (ctx : AuthContext) (id : String) (req : UpdateUserReq)
  deriving DecidableEq

def handle (prim : Primitives) : Request → Handler Response
  | .login username password => loginHandler prim username password
  | .mfaVerify mfaToken code => mfaVerifyHandler prim mfaToken code
  | .refresh cookie => refreshHandler cookie
  | .logout cookie => logoutHandler cookie
  | .updateUser ctx id req => updateHandler prim ctx id req

/-- The service: its handlers, and the calls on the tables. -/
def service (prim : Primitives) : Service Db Request Call Reply Response Outcome :=
  ⟨handle prim, exec prim⟩

/-- The tables, and the requests that are being handled. -/
abbrev Sessions := Pool Db Request Call Reply Response

/-- A step of one of the requests, or a new request, or time that passes. -/
abbrev AuthAction := JobAction Request Outcome

abbrev Sessions.step (prim : Primitives) (s : Sessions) : AuthAction → Option Sessions :=
  Pool.step (service prim) s

/-! ## A small database -/

def Db.single (id : String) (user : User) (tokens : Dict ℕ RefreshToken) (nextToken : ℕ) : Db where
  users := (∅ : Dict String User).insert id user
  scopes := ∅
  tokens := tokens
  attempts := ∅
  nextToken := nextToken
  unique := by
    have hid : ∀ id' u', ((∅ : Dict String User).insert id user).lookup id' = some u' → id' = id := by
      intro id' u' h
      rw [Dict.lookup_insert] at h
      split_ifs at h with heq
      · exact heq
      · cases h
    intro id₁ id₂ u₁ u₂ h₁ h₂ _
    rw [hid id₁ u₁ h₁, hid id₂ u₂ h₂]

/-- An administrator who has signed in: token 0 is theirs. -/
def Db.signedIn : Db :=
  .single "u1" ⟨"alice", "secret", .admin, none, none⟩
    ((∅ : Dict ℕ RefreshToken).insert 0 ⟨"u1", REFRESH_TOKEN_TTL_SECS, none⟩) 1

/-- Passwords and secrets that stand for themselves; "123456" is the code that is valid. -/
def Primitives.plain : Primitives where
  verifyPassword password hash := password = hash
  hashPassword := some
  decrypt := some
  codeValid _ code _ := code = "123456"
  accessToken userId _ _ _ := userId
  mfaPendingToken userId _ := userId
  mfaPendingUser token _ := some token
  trim := id

end Nullnet.Auth
