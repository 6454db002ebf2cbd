import Nullnet.Auth.Handlers

/-! # Refresh tokens

`TokenStep` says what the calls do to the table of refresh tokens: rows stay, with their users, and what
is revoked stays revoked; an exchange revokes a token and makes a row for its successor; ending the
sessions of a user revokes all their tokens. The typestate `foundToken` is what a request knows of
tokens: it exchanges only one that it has found active. -/

namespace Nullnet.Auth

open Nullnet.Lib

/-! ## The table of tokens -/

/-- The rows of tokens stay, with their users, and what is revoked stays revoked. -/
def Db.Keeps (db db' : Db) : Prop :=
  ∀ hash row, db.tokens.lookup hash = some row → ∃ row', db'.tokens.lookup hash = some row' ∧
    row'.userId = row.userId ∧ (row.revokedAt.isSome → row'.revokedAt.isSome)

namespace Db

variable {db db' db'' : Db} {now : ℕ} {hash : ℕ} {userId : String} {id : String}

theorem Keeps.of_eq (h : db'.tokens = db.tokens) : db.Keeps db' :=
  fun _ row hrow => ⟨row, h ▸ hrow, rfl, id⟩

theorem Keeps.refl (db : Db) : db.Keeps db := .of_eq rfl

theorem Keeps.trans (h : db.Keeps db') (h' : db'.Keeps db'') : db.Keeps db'' := by
  intro hash row hrow
  obtain ⟨row', hrow', hu, hr⟩ := h hash row hrow
  obtain ⟨row'', hrow'', hu', hr'⟩ := h' hash row' hrow'
  exact ⟨row'', hrow'', hu'.trans hu, fun h => hr' (hr h)⟩

theorem lookup_revoke {hash' : ℕ} : (db.revoke now hash).tokens.lookup hash' =
    if hash' = hash then (db.tokens.lookup hash').map fun row => { row with revokedAt := some now }
    else db.tokens.lookup hash' := by
  rw [revoke, Dict.lookup_modify]

theorem keeps_revoke (hash : ℕ) : db.Keeps (db.revoke now hash) := by
  intro hash' row hrow
  rw [lookup_revoke]
  split_ifs
  · exact ⟨_, Option.map_eq_some_iff.mpr ⟨row, hrow, rfl⟩, rfl, fun _ => rfl⟩
  · exact ⟨row, hrow, rfl, id⟩

theorem lookup_revokeAllForUser :
    (db.revokeAllForUser now userId).tokens.lookup hash = (db.tokens.lookup hash).map fun row =>
      if row.userId = userId && row.revokedAt.isNone then { row with revokedAt := some now }
      else row :=
  Dict.lookup_mapValues _ _ _

theorem keeps_revokeAllForUser (userId : String) : db.Keeps (db.revokeAllForUser now userId) := by
  intro hash row hrow
  rw [lookup_revokeAllForUser, hrow]
  refine ⟨_, rfl, ?_, fun h => ?_⟩ <;> dsimp only <;> split_ifs
  · rfl
  · rfl
  · rfl
  · exact h

theorem insertToken_spec (h : db.insertToken now userId = some (hash, db')) :
    db.tokens.lookup hash = none ∧ db'.tokens =
      db.tokens.insert hash ⟨userId, now + REFRESH_TOKEN_TTL_SECS, none⟩ := by
  unfold insertToken at h
  split_ifs at h with hc
  cases h
  exact ⟨Option.isNone_iff_eq_none.mp (Bool.and_eq_true_iff.mp hc).2, rfl⟩

theorem keeps_insertToken (h : db.insertToken now userId = some (hash, db')) : db.Keeps db' := by
  obtain ⟨hnew, htokens⟩ := insertToken_spec h
  intro hash' row hrow
  have hne : hash' ≠ hash := by
    rintro rfl
    cases hnew.symm.trans hrow
  refine ⟨row, ?_, rfl, id⟩
  rw [htokens, Dict.lookup_insert, if_neg hne]
  exact hrow

theorem tokens_insertScopes {scopes : List String} :
    (db.insertScopes id scopes).2.tokens = db.tokens := by
  induction scopes generalizing db with
  | nil => rfl
  | cons scope rest ih =>
    unfold insertScopes
    dsimp only
    split_ifs
    · exact ih
    · rfl

theorem tokens_update {username : Option String} {role : Option Role}
    {passwordHash : Option String} (h : db.update id username role passwordHash = some db') :
    db'.tokens = db.tokens := by
  unfold update at h
  dsimp only at h
  split at h
  · exact Option.some.inj h ▸ rfl
  · split_ifs at h
    exact Option.some.inj h ▸ rfl

end Db

/-! ## The calls -/

def exchanged : (c : Call) → Reply c → Option (ℕ × ℕ)
  | .rotate oldHash _, some hash => some (oldHash, hash)
  | _, _ => none

def sessionsEnded : (c : Call) → Reply c → Option String
  | .revokeAllForUser userId, some () => some userId
  | _, _ => none

inductive TokenStep (db : Db) (now : ℕ) : (c : Call) → Reply c → Db → Prop
  | same {c : Call} {r : Reply c} {db' : Db} (h : db'.tokens = db.tokens)
      (hx : exchanged c r = none) (he : sessionsEnded c r = none) : TokenStep db now c r db'
  | insert (userId : String) (hash : ℕ) {db' : Db}
      (h : db.insertToken now userId = some (hash, db')) :
      TokenStep db now (.insert userId) (some hash) db'
  | revoke (hash : ℕ) : TokenStep db now (.revoke hash) (some ()) (db.revoke now hash)
  | revokeAll (userId : String) :
      TokenStep db now (.revokeAllForUser userId) (some ()) (db.revokeAllForUser now userId)
  | rotate (oldHash : ℕ) (userId : String) (hash : ℕ) {db' : Db}
      (h : (db.revoke now oldHash).insertToken now userId = some (hash, db')) :
      TokenStep db now (.rotate oldHash userId) (some hash) db'
  /-- A `rotate` stops after it has revoked the token. -/
  | tear (oldHash : ℕ) (userId : String) :
      TokenStep db now (.rotate oldHash userId) none (db.revoke now oldHash)

/-- **What the calls do to the table of tokens.** -/
theorem exec_tokenStep (prim : Primitives) (db : Db) (now : ℕ) (c : Call) (i : Outcome) :
    TokenStep db now c (exec prim db now c i).2 (exec prim db now c i).1 := by
  cases c with
  | update id username role passwordHash =>
    rcases hu : db.update id username role passwordHash with - | db' <;> simp only [exec, hu]
    · exact .same rfl rfl rfl
    · cases i with
      | done => exact .same (Db.tokens_update hu) rfl rfl
      | failed => exact .same rfl rfl rfl
  | setForUser id scopes =>
    rcases i with - | - | n
    · exact .same Db.tokens_insertScopes rfl rfl
    · exact .same rfl rfl rfl
    · exact .same Db.tokens_insertScopes rfl rfl
  | insert userId =>
    rcases hi : db.insertToken now userId with - | ⟨hash, db'⟩ <;> cases i <;> simp only [exec, hi]
    · exact .same rfl rfl rfl
    · exact .same rfl rfl rfl
    · exact .insert userId hash hi
    · exact .same rfl rfl rfl
  | revoke hash =>
    cases i with
    | done => exact .revoke hash
    | failed => exact .same rfl rfl rfl
  | revokeAllForUser userId =>
    cases i with
    | done => exact .revokeAll userId
    | failed => exact .same rfl rfl rfl
  | rotate oldHash userId =>
    rcases i with - | - | n
    · rcases hi : (db.revoke now oldHash).insertToken now userId with - | ⟨hash, db'⟩ <;>
        simp only [exec, hi]
      · exact .tear oldHash userId
      · exact .rotate oldHash userId hash hi
    · exact .same rfl rfl rfl
    · exact .tear oldHash userId
  | verifyCode | verifyMfaPendingToken => exact .same rfl rfl rfl
  | isLocked | recordFailure | clear | byUsername | byId | countAdmins | clearMfa | forUser |
      findActive | issueAccessToken | issueMfaPendingToken =>
    cases i <;> exact .same rfl rfl rfl

namespace TokenStep

variable {db db' : Db} {now : ℕ} {c : Call} {r : Reply c} {hash : ℕ}

theorem keeps (h : TokenStep db now c r db') : db.Keeps db' := by
  cases h with
  | same h => exact .of_eq h
  | insert userId hash h => exact Db.keeps_insertToken h
  | revoke hash => exact Db.keeps_revoke hash
  | revokeAll userId => exact Db.keeps_revokeAllForUser userId
  | rotate oldHash userId hash h => exact (Db.keeps_revoke oldHash).trans (Db.keeps_insertToken h)
  | tear oldHash => exact Db.keeps_revoke oldHash

/-- An exchange: the old token is revoked, and the new one has a new row, of the given user. -/
theorem of_exchanged (h : TokenStep db now c r db') {oldHash : ℕ}
    (hx : exchanged c r = some (oldHash, hash)) : ∃ userId, c = .rotate oldHash userId ∧
      db.tokens.lookup hash = none ∧
      (∃ row, db'.tokens.lookup hash = some row ∧ row.userId = userId) ∧
      ∀ row, db.tokens.lookup oldHash = some row →
        ∃ row', db'.tokens.lookup oldHash = some row' ∧ row'.revokedAt.isSome := by
  cases h with
  | same h hx' =>
    rw [hx] at hx'
    cases hx'
  | rotate oldHash' userId hash' h =>
    obtain ⟨rfl, rfl⟩ := Prod.mk.inj (Option.some.inj hx)
    obtain ⟨hnew, htokens⟩ := Db.insertToken_spec h
    refine ⟨userId, rfl, ?_, ⟨⟨userId, now + REFRESH_TOKEN_TTL_SECS, none⟩, ?_, rfl⟩, fun row hrow => ?_⟩
    · rcases hrow : db.tokens.lookup hash' with - | row
      · rfl
      · obtain ⟨row', hrow', -, -⟩ := @Db.keeps_revoke db now oldHash' hash' row hrow
        rw [hnew] at hrow'
        cases hrow'
    · rw [htokens]
      exact AList.lookup_insert _
    · have hrow' : (db.revoke now oldHash').tokens.lookup oldHash' =
          some { row with revokedAt := some now } := by
        rw [Db.lookup_revoke, if_pos rfl, hrow]
        rfl
      obtain ⟨row'', hrow'', -, hrevoked⟩ := Db.keeps_insertToken h oldHash' _ hrow'
      exact ⟨row'', hrow'', hrevoked rfl⟩
  | insert | revoke | revokeAll | tear => cases hx

/-- When the sessions of a user are ended, all tokens of the user are revoked. -/
theorem of_sessionsEnded (h : TokenStep db now c r db') {userId : String}
    (he : sessionsEnded c r = some userId) {row : RefreshToken}
    (hrow : db'.tokens.lookup hash = some row) (hu : row.userId = userId) :
    row.revokedAt.isSome := by
  cases h with
  | same h hx he' =>
    cases he.symm.trans he'
  | revokeAll userId' =>
    cases he
    rw [Db.lookup_revokeAllForUser] at hrow
    obtain ⟨row0, -, rfl⟩ := Option.map_eq_some_iff.mp hrow
    split_ifs at hu ⊢ with hc
    · rfl
    · simpa [hu, Option.ne_none_iff_isSome] using hc
  | insert | revoke | rotate | tear => cases he

end TokenStep

/-! ## What a request has found -/

/-- The token that a request has found active, with its row. A request exchanges only such a token,
for one of the same user. -/
def foundToken : Typestate Request Call Reply Response (Option (ℕ × RefreshToken)) where
  init _ := none
  next l c r := match c, r with
    | .findActive hash, some (some row) => some (hash, row)
    | _, _ => l
  allows l c := match c with
    | .rotate oldHash userId => ∃ row, l = some (oldHash, row) ∧ row.userId = userId
    | _ => True
  expects _ _ _ := True
  ends _ _ := True

def Call.isRotate : Call → Bool
  | .rotate .. => true
  | _ => false

def Call.isUpdate : Call → Bool
  | .update .. => true
  | _ => false

/-- The calls that a request may make: only a refresh exchanges a token, and only an update changes the
row of a user. -/
def Request.mayMake : Request → Call → Bool
  | .refresh _, c => !c.isUpdate
  | .updateUser .., c => !c.isRotate
  | _, c => !c.isRotate && !c.isUpdate

open Prog in
theorem makes_handle (prim : Primitives) (q : Request) : (handle prim q).Makes (q.mayMake ·) := by
  cases q <;> simp only [handle]
  case' login => unfold loginHandler failLogin establishSession roleAndScopes issueSession
  case' mfaVerify => unfold mfaVerifyHandler verifyMfa failLogin establishSession roleAndScopes issueSession
  case' refresh => unfold refreshHandler rotateToken roleAndScopes
  case' logout => unfold logoutHandler
  case' updateUser =>
    unfold updateHandler guardLastAdmin commitUpdate updateScopes resetMfa mfaProof proveMfa revokeSessions
  -- each call is allowed where it stands
  all_goals
    repeat' first
      | exact makes_pure
      | exact makes_perform rfl
      | refine makes_bind ?_ fun _ => ?_
      | split

open Typestate in
/-- The refresh handler exchanges the token that it has found, for one of the same user. -/
theorem keeps_rotateToken (hash : ℕ) (active : RefreshToken) :
    foundToken.Keeps (fun _ _ => True) (some (hash, active)) (rotateToken hash active) := by
  refine keeps_bind.mpr ⟨trivial, fun user _ => ?_⟩
  rcases user with - | - | user
  · trivial
  · trivial
  · refine keeps_bind.mpr ?_
    cases user.role
    case' user => refine keeps_bind.mpr ⟨trivial, fun scopes _ => ?_⟩
    -- The token is issued with whatever role and scopes were read.
    all_goals
      refine keeps_bind.mpr ⟨trivial, fun access _ => ?_⟩
      cases access with
      | none => trivial
      | some access =>
        refine keeps_bind.mpr ⟨⟨active, rfl, rfl⟩, fun refresh _ => ?_⟩
        cases refresh <;> trivial

open Typestate in
theorem obeys_foundToken (prim : Primitives) (q : Request) :
    foundToken.Obeys none (handle prim q) := by
  have hrest : (∀ cookie, q ≠ .refresh cookie) → foundToken.Obeys none (handle prim q) := by
    intro hq
    refine keeps_of_makes (J := fun _ => True) (makes_handle prim q) (fun l c _ hc => ⟨?_, fun _ => trivial⟩)
      (fun _ _ _ => trivial) trivial
    cases c with
    | rotate =>
      cases q with
      | refresh cookie => exact absurd rfl (hq cookie)
      | _ => cases hc
    | _ => trivial
  cases q with
  | refresh cookie =>
    cases cookie with
    | none => trivial
    | some hash =>
      refine keeps_bind.mpr ⟨trivial, fun found _ => ?_⟩
      rcases found with - | - | active
      · trivial
      · trivial
      · exact keeps_rotateToken hash active
  | _ => exact hrest nofun

end Nullnet.Auth
