import Nullnet.Auth.Handlers

/-! # The administration of accounts

The handlers that change the rows of users: `create_handler`, `update_handler` and `delete_handler` of
administrators, and the handlers with which users set up, confirm and disable their one-time codes. The
calls are those of the session handlers (`Call`), embedded, and the ones that only these
handlers make. -/

namespace Nullnet.Auth

open Nullnet.Lib

/-! ## Calls -/

/-- Encryption of secrets besides; the nonce is drawn for each one. -/
structure Cipher extends Primitives where
  encrypt : String → String → Option String
  provisioningUri : String → String → Option String
  decrypt_encrypt : ∀ secret nonce text, encrypt secret nonce = some text →
    decrypt text = some secret

namespace Db

/-- `create`: it fails if the id or the name is taken. -/
def create (db : Db) (id username passwordHash : String) (role : Role) : Option Db :=
  if free : db.users.lookup id = none ∧ db.usernameTaken id username = false then
    some { db with
      users := db.users.insert id ⟨username, passwordHash, role, none, none⟩
      unique := by
        have hfree : ∀ id' u', db.users.lookup id' = some u' → u'.username ≠ username := by
          intro id' u' h he
          have hne : id' ≠ id := by
            rintro rfl
            rw [free.1] at h
            cases h
          have := List.any_eq_false.mp free.2 _ (Dict.mem_of_lookup h)
          simp [hne, he] at this
        intro id₁ id₂ u₁ u₂ h₁ h₂ he
        rw [Dict.lookup_insert] at h₁ h₂
        split_ifs at h₁ h₂ with hid₁ hid₂ hid₂
        · rw [hid₁, hid₂]
        · cases h₁
          exact (hfree id₂ u₂ h₂ he.symm).elim
        · cases h₂
          exact (hfree id₁ u₁ h₁ he).elim
        · exact db.unique id₁ id₂ u₁ u₂ h₁ h₂ he }
  else none

/-- `delete`: the scopes and the tokens of the user go with the row. -/
def delete (db : Db) (id : String) : Db :=
  { db with
    users := db.users.erase id
    scopes := db.scopes.erase id
    tokens := db.tokens.retain fun _ row => row.userId ≠ id
    unique := by
      intro id₁ id₂ u₁ u₂ h₁ h₂ he
      rw [Dict.lookup_erase] at h₁ h₂
      split_ifs at h₁ h₂
      exact db.unique id₁ id₂ u₁ u₂ h₁ h₂ he }

def setMfaPending (db : Db) (id secretEnc : String) : Db :=
  db.modifyUser id (fun u => { u with mfaSecretEnc := some secretEnc, mfaConfirmedAt := none })
    fun _ => rfl

def confirmMfa (db : Db) (now : ℕ) (id : String) : Db :=
  db.modifyUser id (fun u => { u with mfaConfirmedAt := some now }) fun _ => rfl

end Db

inductive AccountCall
  | auth (c : Call)
  /-- `Uuid::new_v4`. -/
  | newId
  | create (id username passwordHash : String) (role : Role)
  | delete (id : String)
  | generateSecret
  | encrypt (secret : String)
  | setMfaPending (id secretEnc : String)
  | confirmMfa (id : String)
  deriving DecidableEq

@[reducible] def AccountReply : AccountCall → Type
  | .auth c => Reply c
  | .newId => String
  | .create .. => Option Unit
  | .delete _ => Option Unit
  | .generateSecret => String
  | .encrypt _ => Option String
  | .setMfaPending .. => Option Unit
  | .confirmMfa _ => Option Unit

/-- How a call turns out, and the text that it draws if it draws one. -/
structure Draw where
  outcome : Outcome := .done
  text : String := ""
  deriving DecidableEq

def accountExec (prim : Cipher) (db : Db) (now : ℕ) :
    (c : AccountCall) → Draw → Db × AccountReply c
  | .auth c, i => exec prim.toPrimitives db now c i.outcome
  | .newId, i => (db, i.text)
  | .create id username passwordHash role, i =>
    match db.create id username passwordHash role with
    | some db' => db.write i.outcome db'
    | none => (db, none)
  | .delete id, i => db.write i.outcome (db.delete id)
  | .generateSecret, i => (db, i.text)
  | .encrypt secret, i => (db, prim.encrypt secret i.text)
  | .setMfaPending id secretEnc, i => db.write i.outcome (db.setMfaPending id secretEnc)
  | .confirmMfa id, i => db.write i.outcome (db.confirmMfa now id)

/-! ## Handlers -/

abbrev AccountHandler := Prog AccountCall AccountReply

def lift {A : Type} (p : Handler A) : AccountHandler A := Prog.embed AccountCall.auth p

abbrev ask (c : AccountCall) : AccountHandler (AccountReply c) := Prog.perform c

inductive Answered
  | response (r : Response)
  | created (id : String)
  | setup (secret otpauthUri : String)
  deriving DecidableEq

def refuse (r : Response) : AccountHandler Answered := return .response r

structure CreateUserReq where
  username : String
  password : String
  role : String
  scopes : List String
  deriving DecidableEq

/-- What `create_handler` checks before it looks at the tables: the name, the role and the scopes. -/
def CreateUserReq.validate (prim : Cipher) (req : CreateUserReq) :
    Except Response (String × Role × List String) := do
  let username ← validateUsername prim.toPrimitives req.username
  validatePassword req.password
  match Role.parse req.role with
  | none => .error (rejected 400 "invalid role")
  | some role => return (username, role, ← parseScopes req.scopes)

/-- The part of `create_handler` that makes the row, and what comes after. -/
def commitCreate (username passwordHash : String) (role : Role) (scopes : List String) :
    AccountHandler Answered := do
  let id ← ask .newId
  match ← ask (.create id username passwordHash role) with
  | none => refuse (internalError "failed to create user")
  | some () =>
    if role ≠ .admin ∧ scopes ≠ [] then
      match ← ask (.auth (.setForUser id scopes)) with
      | none => refuse (internalError "user created, but failed to set scopes")
      | some () => return .created id
    else return .created id

def createHandler (prim : Cipher) (ctx : AuthContext) (req : CreateUserReq) :
    AccountHandler Answered := do
  if ctx.role ≠ .admin then refuse (rejected 403 "admin role required")
  else
    match req.validate prim with
    | .error resp => refuse resp
    | .ok (username, role, scopes) =>
      match ← ask (.auth (.byUsername username)) with
      | none => refuse (internalError "failed to check existing users")
      | some (some _) => refuse (rejected 409 "username already taken")
      | some none =>
        match prim.hashPassword req.password with
        | none => refuse (internalError "failed to hash password")
        | some passwordHash => commitCreate username passwordHash role scopes

def guardDelete (target : User) : AccountHandler (Except Response Unit) :=
  if target.role = .admin then do
    match ← ask (.auth .countAdmins) with
    | none => return .error (internalError "failed to check admin count")
    | some n =>
      if n ≤ 1 then return .error (rejected 400 "cannot delete the last remaining admin")
      else return .ok ()
  else return .ok ()

def deleteHandler (ctx : AuthContext) (id : String) : AccountHandler Answered := do
  if ctx.role ≠ .admin then refuse (rejected 403 "admin role required")
  else
    match ← ask (.auth (.byId id)) with
    | none => refuse (internalError "user lookup failed")
    | some none => refuse (rejected 404 "user not found")
    | some (some target) =>
      match ← guardDelete target with
      | .error resp => refuse resp
      | .ok () =>
        match ← ask (.delete id) with
        | none => refuse (internalError "failed to delete user")
        | some () =>
          let _ ← ask (.auth (.revokeAllForUser id))
          return .response noContent

/-- Who has a confirmed secret shows a code for it before it is replaced. -/
def proveCurrent (prim : Cipher) (id : String) (user : User) (code : Option String) :
    AccountHandler (Except Response Unit) :=
  if user.mfaConfirmedAt.isNone then return .ok ()
  else
    match user.mfaSecretEnc with
    | none => return .error (internalError "mfa marked confirmed but no secret stored")
    | some secretEnc =>
      match prim.decrypt secretEnc with
      | none => return .error (internalError "failed to decrypt mfa secret")
      | some secret =>
        match code with
        | none => return .error (rejected 401
            "mfa is already enabled — enter your current code to re-enroll")
        | some code => do
          if ← ask (.auth (.verifyCode id secret code)) then return .ok ()
          else return .error (rejected 401
            "mfa is already enabled — enter your current code to re-enroll")

/-- The part of `setup_handler` that draws a secret and stores it. -/
def storeSecret (prim : Cipher) (id : String) (user : User) : AccountHandler Answered := do
  let secret ← ask .generateSecret
  match prim.provisioningUri secret user.username with
  | none => refuse (internalError "failed to build provisioning uri")
  | some otpauthUri =>
    match ← ask (.encrypt secret) with
    | none => refuse (internalError "failed to encrypt mfa secret")
    | some secretEnc =>
      match ← ask (.setMfaPending id secretEnc) with
      | none => refuse (internalError "failed to store mfa secret")
      | some () => return .setup secret otpauthUri

def setupHandler (prim : Cipher) (ctx : AuthContext) (code : Option String) :
    AccountHandler Answered := do
  match ← ask (.auth (.byId ctx.userId)) with
  | none => refuse (internalError "user lookup failed")
  | some none => refuse (rejected 404 "user not found")
  | some (some user) =>
    match ← proveCurrent prim ctx.userId user code with
    | .error resp => refuse resp
    | .ok () => storeSecret prim ctx.userId user

/-- `decrypt_pending_secret`: none if there is no secret, and within it none if it cannot be read. -/
def decryptPendingSecret (prim : Cipher) (userId : String) :
    AccountHandler (Option (Option String)) := do
  match ← ask (.auth (.byId userId)) with
  | some (some user) => return user.mfaSecretEnc.map prim.decrypt
  | _ => return none

/-- A code is checked against the secret of the user, and then `write` is done. -/
def withCode (prim : Cipher) (ctx : AuthContext) (code : String) (noSecret failed : String)
    (write : AccountHandler (Option Unit)) : AccountHandler Answered := do
  match ← decryptPendingSecret prim ctx.userId with
  | none => refuse (rejected 400 noSecret)
  | some none => refuse (internalError "failed to decrypt mfa secret")
  | some (some secret) =>
    if ← ask (.auth (.verifyCode ctx.userId secret code)) then
      match ← write with
      | none => refuse (internalError failed)
      | some () => return .response noContent
    else refuse (rejected 400 "invalid code")

def confirmHandler (prim : Cipher) (ctx : AuthContext) (code : String) : AccountHandler Answered :=
  withCode prim ctx code "no pending mfa setup — call setup first" "failed to confirm mfa"
    (ask (.confirmMfa ctx.userId))

def disableHandler (prim : Cipher) (ctx : AuthContext) (code : String) : AccountHandler Answered :=
  withCode prim ctx code "mfa is not enabled" "failed to disable mfa"
    (ask (.auth (.clearMfa ctx.userId)))

/-! ## The service -/

inductive AccountRequest
  | createUser (ctx : AuthContext) (req : CreateUserReq)
  | updateUser (ctx : AuthContext) (id : String) (req : UpdateUserReq)
  | deleteUser (ctx : AuthContext) (id : String)
  | mfaSetup (ctx : AuthContext) (code : Option String)
  | mfaConfirm (ctx : AuthContext) (code : String)
  | mfaDisable (ctx : AuthContext) (code : String)
  deriving DecidableEq

def accountHandle (prim : Cipher) : AccountRequest → AccountHandler Answered
  | .createUser ctx req => createHandler prim ctx req
  | .updateUser ctx id req => do return .response (← lift (updateHandler prim.toPrimitives ctx id req))
  | .deleteUser ctx id => deleteHandler ctx id
  | .mfaSetup ctx code => setupHandler prim ctx code
  | .mfaConfirm ctx code => confirmHandler prim ctx code
  | .mfaDisable ctx code => disableHandler prim ctx code

/-- The service: its handlers, and the calls on the tables. -/
def accountService (prim : Cipher) :
    Service Db AccountRequest AccountCall AccountReply Answered Draw :=
  ⟨accountHandle prim, accountExec prim⟩

/-- The tables, and the requests that are being handled. -/
abbrev Accounts := Pool Db AccountRequest AccountCall AccountReply Answered

abbrev AccountAction := JobAction AccountRequest Draw

abbrev Accounts.step (prim : Cipher) (s : Accounts) : AccountAction → Option Accounts :=
  Pool.step (accountService prim) s

/-- Secrets and keys that stand for themselves; the code for a secret is the secret. -/
def Cipher.plain : Cipher where
  toPrimitives := { Primitives.plain with codeValid := fun secret code _ => code = secret }
  encrypt secret _ := some secret
  provisioningUri secret _ := some secret
  decrypt_encrypt _ _ _ h := h.symm

end Nullnet.Auth
