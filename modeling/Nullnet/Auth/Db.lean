import Nullnet.Lib.Jobs

/-! # The tables of users, and the calls on them

The tables of users, their scopes, their refresh tokens and their failed logins, and the calls of the
repositories on them. Each call holds the connection, so it is atomic; a call of several statements
can fail midway. Times are seconds. Refresh tokens stand for their hashes; a fresh one is one that has
never been drawn before. The columns `created_at` and `updated_at` are left out.

What the handlers ask of the outside besides (signed tokens, one-time codes) depends on the time, so it
is a call as well. -/

namespace Nullnet.Auth

open Nullnet.Lib

/-! ## The tables -/

inductive Role
  | admin
  | user
  deriving DecidableEq

def Role.parse : String → Option Role
  | "admin" => some .admin
  | "user" => some .user
  | _ => none

/-- A row of `users`, without its id. -/
structure User where
  username : String
  passwordHash : String
  role : Role
  mfaSecretEnc : Option String
  mfaConfirmedAt : Option ℕ
  deriving DecidableEq

/-- A row of `refresh_tokens`, without its hash. -/
structure RefreshToken where
  userId : String
  expiresAt : ℕ
  revokedAt : Option ℕ
  deriving DecidableEq

def RefreshToken.isActive (now : ℕ) (row : RefreshToken) : Bool :=
  row.revokedAt.isNone && now < row.expiresAt

/-- A row of `login_attempts`, without its username. -/
structure LoginAttempt where
  failedCount : ℕ
  lockedUntil : Option ℕ
  deriving DecidableEq

structure Db where
  users : Dict String User
  scopes : Dict String (List String)
  tokens : Dict ℕ RefreshToken
  attempts : Dict String LoginAttempt
  /-- Tokens from here on have not been drawn. -/
  nextToken : ℕ
  /-- Usernames are unique. -/
  unique : ∀ id id' u u', users.lookup id = some u → users.lookup id' = some u' →
    u.username = u'.username → id = id'

/-- After this many failures in a row, the account is locked. -/
def MAX_FAILED_ATTEMPTS : ℕ := 5

def LOCKOUT_SECS : ℕ := 15 * 60

def REFRESH_TOKEN_TTL_SECS : ℕ := 30 * 24 * 60 * 60

namespace Db

/-! ## Failed logins -/

def isLocked (db : Db) (now : ℕ) (username : String) : Bool :=
  ((db.attempts.lookup username).bind (·.lockedUntil)).any fun until_ => now < until_

def failedCount (db : Db) (username : String) : ℕ :=
  ((db.attempts.lookup username).map (·.failedCount)).getD 0

def recordFailure (db : Db) (now : ℕ) (username : String) : Db :=
  let failed := db.failedCount username + 1
  let lockedUntil := if MAX_FAILED_ATTEMPTS ≤ failed then some (now + LOCKOUT_SECS) else none
  { db with attempts := db.attempts.insert username ⟨failed, lockedUntil⟩ }

def clear (db : Db) (username : String) : Db :=
  { db with attempts := db.attempts.erase username }

/-! ## Users -/

/-- `by_username`: the id and the row. -/
def byUsername (db : Db) (username : String) : Option (String × User) :=
  (db.users.entries.find? fun e => e.2.username = username).map fun e => (e.1, e.2)

def countAdmins (db : Db) : ℕ := db.users.entries.countP fun e => e.2.role = .admin

/-- Change the row of a user, but not its name. -/
def modifyUser (db : Db) (id : String) (f : User → User)
    (hf : ∀ u, (f u).username = u.username) : Db :=
  { db with
    users := db.users.modify id f
    unique := by
      have key : ∀ id' u', (db.users.modify id f).lookup id' = some u' →
          ∃ u, db.users.lookup id' = some u ∧ u'.username = u.username := by
        intro id' u' h
        rw [Dict.lookup_modify] at h
        split_ifs at h
        · obtain ⟨u, hu, rfl⟩ := Option.map_eq_some_iff.mp h
          exact ⟨u, hu, hf u⟩
        · exact ⟨u', h, rfl⟩
      intro id₁ id₂ u₁ u₂ h₁ h₂ he
      obtain ⟨v₁, hv₁, he₁⟩ := key id₁ u₁ h₁
      obtain ⟨v₂, hv₂, he₂⟩ := key id₂ u₂ h₂
      exact db.unique id₁ id₂ v₁ v₂ hv₁ hv₂ (he₁ ▸ he₂ ▸ he) }

def usernameTaken (db : Db) (id username : String) : Bool :=
  db.users.entries.any fun e => e.1 ≠ id && e.2.username = username

def rename (db : Db) (id username : String) (free : db.usernameTaken id username = false) : Db :=
  { db with
    users := db.users.modify id fun u => { u with username := username }
    unique := by
      have hfree : ∀ id' u', db.users.lookup id' = some u' → id' ≠ id → u'.username ≠ username := by
        intro id' u' h hne he
        have := List.any_eq_false.mp free _ (Dict.mem_of_lookup h)
        simp [hne, he] at this
      intro id₁ id₂ u₁ u₂ h₁ h₂ he
      rw [Dict.lookup_modify] at h₁ h₂
      split_ifs at h₁ h₂ with hid₁ hid₂ hid₂
      · rw [hid₁, hid₂]
      · obtain ⟨v, -, rfl⟩ := Option.map_eq_some_iff.mp h₁
        exact (hfree id₂ u₂ h₂ hid₂ he.symm).elim
      · obtain ⟨v, -, rfl⟩ := Option.map_eq_some_iff.mp h₂
        exact (hfree id₁ u₁ h₁ hid₁ he).elim
      · exact db.unique id₁ id₂ u₁ u₂ h₁ h₂ he }

/-- `update`: the fields that are given are changed. It fails if the name is taken. -/
def update (db : Db) (id : String) (username : Option String) (role : Option Role)
    (passwordHash : Option String) : Option Db :=
  let changed := db.modifyUser id (fun u =>
    { u with role := role.getD u.role, passwordHash := passwordHash.getD u.passwordHash })
    fun _ => rfl
  match username with
  | none => some changed
  | some username =>
    if free : changed.usernameTaken id username = false then some (changed.rename id username free)
    else none

def clearMfa (db : Db) (id : String) : Db :=
  db.modifyUser id (fun u => { u with mfaSecretEnc := none, mfaConfirmedAt := none }) fun _ => rfl

/-! ## Scopes -/

/-- Grant scopes one by one; a grant fails if the user is unknown or has the scope already. -/
def insertScopes (db : Db) (id : String) : List String → Bool × Db
  | [] => (true, db)
  | scope :: rest =>
    let granted := (db.scopes.lookup id).getD []
    if (db.users.lookup id).isSome && scope ∉ granted then
      insertScopes { db with scopes := db.scopes.insert id (granted ++ [scope]) } id rest
    else (false, db)

/-- `set_for_user`: all scopes of the user are taken away, and the given ones granted. -/
def setForUser (db : Db) (id : String) (scopes : List String) : Bool × Db :=
  insertScopes { db with scopes := db.scopes.erase id } id scopes

/-! ## Refresh tokens -/

/-- `insert`: a new token. It fails if the user is unknown. -/
def insertToken (db : Db) (now : ℕ) (userId : String) : Option (ℕ × Db) :=
  if (db.users.lookup userId).isSome && (db.tokens.lookup db.nextToken).isNone then
    some (db.nextToken, { db with
      tokens := db.tokens.insert db.nextToken ⟨userId, now + REFRESH_TOKEN_TTL_SECS, none⟩
      nextToken := db.nextToken + 1 })
  else none

def findActive (db : Db) (now hash : ℕ) : Option RefreshToken :=
  (db.tokens.lookup hash).filter (·.isActive now)

def revoke (db : Db) (now hash : ℕ) : Db :=
  { db with tokens := db.tokens.modify hash fun row => { row with revokedAt := some now } }

def revokeAllForUser (db : Db) (now : ℕ) (userId : String) : Db :=
  { db with tokens := db.tokens.mapValues fun row =>
      if row.userId = userId && row.revokedAt.isNone then { row with revokedAt := some now }
      else row }

end Db

/-! ## Calls -/

/-- What the handlers get from libraries: hashes of passwords, decryption of the secrets of one-time
codes, these codes, signed tokens, and the trimming of strings. -/
structure Primitives where
  /-- The password has the hash. -/
  verifyPassword : String → String → Bool
  hashPassword : String → Option String
  decrypt : String → Option String
  /-- The code is valid for the secret at the time. -/
  codeValid : String → String → ℕ → Bool
  accessToken : String → Role → List String → ℕ → String
  mfaPendingToken : String → ℕ → String
  /-- The user that a token was issued for, if it is valid at the time. -/
  mfaPendingUser : String → ℕ → Option String
  trim : String → String

inductive Call
  | isLocked (username : String)
  | recordFailure (username : String)
  | clear (username : String)
  | byUsername (username : String)
  | byId (id : String)
  | countAdmins
  | update (id : String) (username : Option String) (role : Option Role)
      (passwordHash : Option String)
  | clearMfa (id : String)
  | forUser (id : String)
  | setForUser (id : String) (scopes : List String)
  | insert (userId : String)
  | findActive (hash : ℕ)
  | revoke (hash : ℕ)
  | revokeAllForUser (userId : String)
  | rotate (oldHash : ℕ) (userId : String)
  | verifyCode (userId secret code : String)
  | issueAccessToken (userId : String) (role : Role) (scopes : List String)
  | issueMfaPendingToken (userId : String)
  | verifyMfaPendingToken (token : String)
  deriving DecidableEq

/-- Replies; most are none if the call fails. -/
@[reducible] def Reply : Call → Type
  | .isLocked _ => Option Bool
  | .recordFailure _ => Option Unit
  | .clear _ => Option Unit
  | .byUsername _ => Option (Option (String × User))
  | .byId _ => Option (Option User)
  | .countAdmins => Option ℕ
  | .update .. => Option Unit
  | .clearMfa _ => Option Unit
  | .forUser _ => Option (List String)
  | .setForUser .. => Option Unit
  | .insert _ => Option ℕ
  | .findActive _ => Option (Option RefreshToken)
  | .revoke _ => Option Unit
  | .revokeAllForUser _ => Option Unit
  | .rotate .. => Option ℕ
  | .verifyCode .. => Bool
  | .issueAccessToken .. => Option String
  | .issueMfaPendingToken _ => Option String
  | .verifyMfaPendingToken _ => Option String

/-- How a call turns out: it is carried out, or it fails after some of its statements. -/
inductive Outcome
  | done
  | failed (statements : ℕ)
  deriving DecidableEq

/-- A call that changes nothing. -/
def Db.read {A : Type} (db : Db) (i : Outcome) (a : A) : Db × Option A :=
  match i with
  | .done => (db, some a)
  | .failed _ => (db, none)

/-- A call of one statement. -/
def Db.write (db : Db) (i : Outcome) (db' : Db) : Db × Option Unit :=
  match i with
  | .done => (db', some ())
  | .failed _ => (db, none)

def exec (prim : Primitives) (db : Db) (now : ℕ) : (c : Call) → Outcome → Db × Reply c
  | .isLocked username, i => db.read i (db.isLocked now username)
  | .recordFailure username, i => db.write i (db.recordFailure now username)
  | .clear username, i => db.write i (db.clear username)
  | .byUsername username, i => db.read i (db.byUsername username)
  | .byId id, i => db.read i (db.users.lookup id)
  | .countAdmins, i => db.read i db.countAdmins
  | .update id username role passwordHash, i =>
    match db.update id username role passwordHash with
    | some db' => db.write i db'
    | none => (db, none)
  | .clearMfa id, i => db.write i (db.clearMfa id)
  | .forUser id, i => db.read i ((db.scopes.lookup id).getD [])
  | .setForUser id scopes, i =>
    match i with
    | .done =>
      let (all, db') := db.setForUser id scopes
      (db', if all then some () else none)
    | .failed 0 => (db, none)
    | .failed (n + 1) => ((db.setForUser id (scopes.take n)).2, none)
  | .insert userId, i =>
    match i, db.insertToken now userId with
    | .done, some (hash, db') => (db', some hash)
    | _, _ => (db, none)
  | .findActive hash, i => db.read i (db.findActive now hash)
  | .revoke hash, i => db.write i (db.revoke now hash)
  | .revokeAllForUser userId, i => db.write i (db.revokeAllForUser now userId)
  | .rotate oldHash userId, i =>
    match i with
    | .failed 0 => (db, none)
    | .failed (_ + 1) => (db.revoke now oldHash, none)
    | .done =>
      match (db.revoke now oldHash).insertToken now userId with
      | some (hash, db') => (db', some hash)
      | none => (db.revoke now oldHash, none)
  | .verifyCode _ secret code, _ => (db, prim.codeValid secret code now)
  | .issueAccessToken userId role scopes, i => db.read i (prim.accessToken userId role scopes now)
  | .issueMfaPendingToken userId, i => db.read i (prim.mfaPendingToken userId now)
  | .verifyMfaPendingToken token, _ => (db, prim.mfaPendingUser token now)

end Nullnet.Auth
