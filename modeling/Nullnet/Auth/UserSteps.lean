import Nullnet.Auth.Readings

/-! # What the calls do to the rows of users

A call changes one row (`rowChange`), makes one, deletes one, or leaves the rows as they are
(`accountExec_userStep`). -/

namespace Nullnet.Auth

open Nullnet.Lib

def rowChange (now : ℕ) : AccountCall → Option (String × (User → User))
  | .auth (.update id username role passwordHash) => some (id, fun u =>
      { u with
        username := username.getD u.username
        role := role.getD u.role
        passwordHash := passwordHash.getD u.passwordHash })
  | .auth (.clearMfa id) => some (id, fun u => { u with mfaSecretEnc := none, mfaConfirmedAt := none })
  | .setMfaPending id secretEnc => some (id, fun u =>
      { u with mfaSecretEnc := some secretEnc, mfaConfirmedAt := none })
  | .confirmMfa id => some (id, fun u => { u with mfaConfirmedAt := some now })
  | _ => none

def AccountCall.writesUsers : AccountCall → Bool
  | .auth (.update ..) | .auth (.clearMfa _) | .setMfaPending .. | .confirmMfa _ => true
  | .create .. | .delete _ => true
  | _ => false

/-- The call is carried out: it does not fail, and its ids and names are free. -/
def Db.carriesOut (db : Db) (i : Draw) : AccountCall → Bool
  | .auth (.update id username role passwordHash) =>
    i.outcome = .done && (db.update id username role passwordHash).isSome
  | .create id username passwordHash role =>
    i.outcome = .done && (db.create id username passwordHash role).isSome
  | _ => i.outcome = .done

inductive UserStep (db : Db) (now : ℕ) (c : AccountCall) (done : Bool) (db' : Db) : Prop
  | same (hc : c.writesUsers = false ∨ done = false) (h : db'.users = db.users) :
      UserStep db now c done db'
  | change {id : String} {f : User → User} (hdone : done = true) (hf : rowChange now c = some (id, f))
      (h : ∀ k, db'.users.lookup k = (db.users.modify id f).lookup k) : UserStep db now c done db'
  | create {id username passwordHash : String} {role : Role} (hdone : done = true)
      (hc : c = .create id username passwordHash role) (hid : db.users.lookup id = none)
      (h : db'.users = db.users.insert id ⟨username, passwordHash, role, none, none⟩) :
      UserStep db now c done db'
  | delete {id : String} (hdone : done = true) (hc : c = .delete id)
      (h : db'.users = db.users.erase id) : UserStep db now c done db'

namespace Db

variable {db db' : Db} {id : String}

theorem users_insertScopes {scopes : List String} :
    (db.insertScopes id scopes).2.users = db.users := by
  induction scopes generalizing db with
  | nil => rfl
  | cons scope rest ih =>
    unfold insertScopes
    dsimp only
    split_ifs
    · exact ih
    · rfl

theorem users_insertToken {now hash : ℕ} {userId : String}
    (h : db.insertToken now userId = some (hash, db')) : db'.users = db.users := by
  unfold insertToken at h
  split_ifs at h
  cases h
  rfl

theorem lookup_update {username : Option String} {role : Option Role}
    {passwordHash : Option String} (h : db.update id username role passwordHash = some db')
    (k : String) : db'.users.lookup k = (db.users.modify id fun u => { u with
      username := username.getD u.username
      role := role.getD u.role
      passwordHash := passwordHash.getD u.passwordHash }).lookup k := by
  rw [Dict.lookup_modify]
  unfold update at h
  cases username with
  | none =>
    cases h
    exact Dict.lookup_modify _ _ _ _
  | some username =>
    dsimp only at h
    split_ifs at h
    cases h
    simp only [rename, modifyUser, Dict.lookup_modify]
    split_ifs
    · rw [Option.map_map]
      rfl
    · rfl

theorem create_spec {username passwordHash : String} {role : Role}
    (h : db.create id username passwordHash role = some db') : db.users.lookup id = none ∧
      db'.users = db.users.insert id ⟨username, passwordHash, role, none, none⟩ := by
  unfold create at h
  split_ifs at h with free
  cases h
  exact ⟨free.1, rfl⟩

end Db

theorem users_exec {prim : Primitives} {db : Db} {now : ℕ} {c : Call} {i : Outcome}
    (hc : (AccountCall.auth c).writesUsers = false) : (exec prim db now c i).1.users = db.users := by
  cases c with
  | update | clearMfa => cases hc
  | setForUser id scopes => rcases i with - | - | n <;> first | exact Db.users_insertScopes | rfl
  | insert userId =>
    rcases hi : db.insertToken now userId with - | ⟨hash, db'⟩ <;> cases i <;> simp only [exec, hi]
    exact Db.users_insertToken hi
  | rotate oldHash userId =>
    rcases i with - | - | n
    · rcases hi : (db.revoke now oldHash).insertToken now userId with - | ⟨hash, db'⟩ <;>
        simp only [exec, hi]
      · rfl
      · exact (Db.users_insertToken hi : _ = (db.revoke now oldHash).users)
    · rfl
    · rfl
  | verifyCode | verifyMfaPendingToken => rfl
  | _ => cases i <;> rfl

/-- **What the calls do to the rows of users.** -/
theorem accountExec_userStep (prim : Cipher) (db : Db) (now : ℕ) (c : AccountCall) (i : Draw) :
    UserStep db now c (db.carriesOut i c) (accountExec prim db now c i).1 := by
  rcases i with ⟨o, text⟩
  cases c with
  | auth c =>
    by_cases hc : (AccountCall.auth c).writesUsers = false
    · exact .same (.inl hc) (users_exec hc)
    · cases c with
      | update id username role passwordHash =>
        rcases hu : db.update id username role passwordHash with - | db' <;>
          simp only [accountExec, exec, hu]
        · exact .same (.inr (by simp [Db.carriesOut, hu])) rfl
        · cases o with
          | done => exact .change (by simp [Db.carriesOut, hu]) rfl (Db.lookup_update hu)
          | failed => exact .same (.inr rfl) rfl
      | clearMfa id =>
        cases o with
        | done => exact .change rfl rfl fun _ => rfl
        | failed => exact .same (.inr rfl) rfl
      | _ => exact absurd rfl hc
  | newId | generateSecret | encrypt => exact .same (.inl rfl) rfl
  | create id username passwordHash role =>
    rcases hu : db.create id username passwordHash role with - | db' <;> simp only [accountExec, hu]
    · exact .same (.inr (by simp [Db.carriesOut, hu])) rfl
    · cases o with
      | done =>
        obtain ⟨hid, h⟩ := Db.create_spec hu
        exact .create (by simp [Db.carriesOut, hu]) rfl hid h
      | failed => exact .same (.inr rfl) rfl
  | delete id =>
    cases o with
    | done => exact .delete rfl rfl rfl
    | failed => exact .same (.inr rfl) rfl
  | setMfaPending | confirmMfa =>
    cases o with
    | done => exact .change rfl rfl fun _ => rfl
    | failed => exact .same (.inr rfl) rfl

end Nullnet.Auth
