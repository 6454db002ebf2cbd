import Nullnet.Auth.Tokens

/-! # The stages of a sign-in

A sign-in is a login with a password, or the one-time code after it. The typestate `attempt` follows a
request through it: it finds the row of a user; a code of the user turns out wrong, and this is to be
recorded; or it turns out right, and the counter is to be cleared; or the counter has been cleared, and
a session is to be issued. `SignInStep` says what a call does in each of these stages. -/

namespace Nullnet.Auth

open Nullnet.Lib

/-! ## Stages -/

/-- Where a sign-in is. -/
inductive Attempt
  | idle
  | found (id : String) (user : User)
  | wrong (id : String) (user : User)
  | right (id : String) (user : User)
  | issuing (id : String) (user : User)
  deriving DecidableEq

/-- The calls that neither count nor clear what is wrong with a code. -/
def Call.isLookup : Call → Bool
  | .isLocked _ | .recordFailure _ | .byUsername _ | .byId _ => true
  | .issueMfaPendingToken _ | .verifyMfaPendingToken _ => true
  | _ => false

/-- A wrong code is recorded, a counter is cleared for a right one, and for users who need no code, and
then a session is issued. -/
def attempt : Typestate Request Call Reply Response Attempt where
  init _ := .idle
  next l c r := match l, c, r with
    | .idle, .byId id, some (some user) => .found id user
    | .idle, .byUsername _, some (some (id, user)) => .found id user
    | .found id user, .verifyCode .., true => .right id user
    | .found id user, .verifyCode .., false => .wrong id user
    | .found id user, .clear _, _ =>
      if user.mfaConfirmedAt.isSome then .idle else .issuing id user
    | .wrong .., .recordFailure _, _ => .idle
    | .right id user, .clear _, _ => .issuing id user
    | .issuing .., .insert _, _ => .idle
    | l, _, _ => l
  allows l c := match l, c with
    | .idle, c => c.isLookup
    | .found id _, .verifyCode id' _ _ => id' = id
    | .found _ user, .clear username => username = user.username
    | .found .., c => c.isLookup
    | .wrong _ user, c => c = .recordFailure user.username
    | .right _ user, c => c = .clear user.username
    | .issuing .., .forUser _ => True
    | .issuing .., .issueAccessToken .. => True
    | .issuing id _, .insert id' => id' = id
    | .issuing .., _ => False
  expects l c r := match l, c, r with
    | .idle, .byUsername username, some (some (_, user)) => user.username = username
    | .wrong .., .recordFailure _, r => r.isSome
    | .issuing .., .issueAccessToken .., r => r.isSome
    | .issuing .., .insert _, r => r.isSome
    | _, _, _ => True
  ends l _ := match l with
    | .idle | .found .. => True
    | _ => False

section

variable {prim : Primitives} {id : String} {user : User}

open Typestate

theorem keeps_failLogin {l : Attempt} {username error : String}
    (h : attempt.allows l (.recordFailure username)) :
    attempt.Obeys l (failLogin username error) := by
  cases l with
  | idle | found | wrong => exact ⟨h, fun _ _ => trivial⟩
  | right => cases h
  | issuing => exact h.elim

theorem keeps_establishSession : attempt.Obeys (.issuing id user) (establishSession id user) := by
  refine keeps_bind.mpr ?_
  cases user.role
  case' user => refine keeps_bind.mpr ⟨trivial, fun scopes _ => ?_⟩
  all_goals
    refine keeps_bind.mpr (keeps_bind.mpr ⟨trivial, fun access haccess => ?_⟩)
    obtain ⟨access, rfl⟩ := Option.isSome_iff_exists.mp haccess
    refine keeps_bind.mpr ⟨rfl, fun refresh hrefresh => ?_⟩
    obtain ⟨refresh, rfl⟩ := Option.isSome_iff_exists.mp hrefresh
    trivial

theorem keeps_loginHandler (username password : String) :
    attempt.Obeys .idle (loginHandler prim username password) := by
  refine keeps_bind.mpr ⟨rfl, fun locked _ => ?_⟩
  rcases locked with - | - | -
  · trivial
  · refine keeps_bind.mpr ⟨rfl, fun found hname => ?_⟩
    rcases found with - | - | ⟨id, user⟩
    · trivial
    · exact keeps_failLogin rfl
    · change attempt.Obeys (.found id user) (if prim.verifyPassword password user.passwordHash then _
        else _)
      obtain rfl : user.username = username := hname
      split_ifs with hpassword hmfa
      · refine keeps_bind.mpr ⟨rfl, fun _ _ => ?_⟩
        have hnext : ∀ r, attempt.next (.found id user) (.clear user.username) r = .idle :=
          fun r => if_pos hmfa
        rw [hnext]
        refine keeps_bind.mpr ⟨rfl, fun token _ => ?_⟩
        cases token <;> trivial
      · refine keeps_bind.mpr ⟨rfl, fun _ _ => ?_⟩
        have hnext : ∀ r, attempt.next (.found id user) (.clear user.username) r =
            .issuing id user := fun r => if_neg hmfa
        rw [hnext]
        exact keeps_establishSession
      · refine keeps_failLogin ?_
        exact rfl
  · trivial

theorem keeps_mfaVerifyHandler (mfaToken code : String) :
    attempt.Obeys .idle (mfaVerifyHandler prim mfaToken code) := by
  refine keeps_bind.mpr ⟨rfl, fun userId _ => ?_⟩
  rcases userId with - | userId
  · trivial
  · refine keeps_bind.mpr ⟨rfl, fun found _ => ?_⟩
    rcases found with - | - | user
    · trivial
    · trivial
    · refine keeps_bind.mpr ⟨rfl, fun locked _ => ?_⟩
      rcases locked with - | - | -
      · trivial
      · unfold verifyMfa
        split
        · trivial
        · split
          · trivial
          · refine keeps_bind.mpr ⟨rfl, fun valid _ => ?_⟩
            cases valid with
            | false => exact keeps_failLogin rfl
            | true => exact keeps_bind.mpr ⟨rfl, fun _ _ => keeps_establishSession⟩
      · trivial

end

/-! ## Wrong codes -/

/-- A call may be one more wrong code for a user, or issue a session to the user, after which one counts
anew. -/
def countWrong (id : String) (now : ℕ) : (c : Call) → Reply c → List ℕ → List ℕ
  | .verifyCode id' _ _, false, w => if id' = id then now :: w else w
  | .insert id', some _, w => if id' = id then [] else w
  | _, _, w => w

variable {id : String} {now : ℕ} {db : Db} {id' : String} {w : List ℕ} {hash : ℕ}

theorem countWrong_wrong {secret code : String} :
    countWrong id now (.verifyCode id' secret code) false w = if id' = id then now :: w else w := rfl

theorem countWrong_session :
    countWrong id now (.insert id') (some hash) w = if id' = id then [] else w := rfl

/-- The times of the wrong codes for a user since their last session, the last one first. -/
def wrongTimes (id : String) : List (Entry Call Reply) → List ℕ
  | [] => []
  | e :: log => countWrong id e.time e.call e.reply (wrongTimes id log)

/-! ## What the calls do -/

/-- What a call of a sign-in does to the stage, the tables and the wrong codes. -/
inductive SignInStep (db : Db) (now : ℕ) : Attempt → (c : Call) → Reply c → Attempt → Db → Prop
  /-- Nothing is counted, and the row of a user may be found. -/
  | quiet {l l' : Attempt} {c : Call} {r : Reply c}
      (hw : ∀ id w, countWrong id now c r w = w)
      (hl : l' = l ∨ (∃ id user, l = .found id user ∧ l' = .right id user) ∨
        l = .idle ∧ ∃ id user, l' = .found id user ∧ db.users.lookup id = some user) :
      SignInStep db now l c r l' db
  | evaluate (id : String) (user : User) (secret code : String) :
      SignInStep db now (.found id user) (.verifyCode id secret code) false (.wrong id user) db
  | record (id : String) (user : User) :
      SignInStep db now (.wrong id user) (.recordFailure user.username) (some ()) .idle
        (db.recordFailure now user.username)
  | recordOther {l : Attempt} (hl : ∀ id user, l ≠ .wrong id user) (username : String) :
      SignInStep db now l (.recordFailure username) (some ()) l (db.recordFailure now username)
  /-- The counter is cleared, before a session is issued. -/
  | clear {l : Attempt} (id : String) (user : User)
      (hl : l = .right id user ∨ l = .found id user ∧ user.mfaConfirmedAt = none) {db' : Db}
      {r : Option Unit} (hdb : db' = db.clear user.username ∨ db' = db) :
      SignInStep db now l (.clear user.username) r (.issuing id user) db'
  /-- The counter is cleared for a right password, although the code is still to come. -/
  | forget (id : String) (user : User) {db' : Db} {r : Option Unit}
      (hmfa : user.mfaConfirmedAt.isSome)
      (hdb : db' = db.clear user.username ∧ r = some () ∨ db' = db ∧ r = none) :
      SignInStep db now (.found id user) (.clear user.username) r .idle db'
  | session (id : String) (user : User) (hash : ℕ) {db' : Db} (ha : db'.attempts = db.attempts)
      (hu : db'.users = db.users) :
      SignInStep db now (.issuing id user) (.insert id) (some hash) .idle db'

theorem Db.insertToken_frame {db' : Db} {userId : String}
    (h : db.insertToken now userId = some (hash, db')) :
    db'.attempts = db.attempts ∧ db'.users = db.users := by
  unfold insertToken at h
  split_ifs at h
  cases h
  exact ⟨rfl, rfl⟩

theorem Db.byUsername_spec {username : String} {user : User}
    (h : db.byUsername username = some (id, user)) :
    db.users.lookup id = some user ∧ user.username = username := by
  obtain ⟨⟨id', user'⟩, hfind, he⟩ := Option.map_eq_some_iff.mp h
  cases he
  have hname := List.find?_some hfind
  exact ⟨Dict.lookup_eq_some.mpr (List.mem_of_find?_eq_some hfind), of_decide_eq_true hname⟩

/-- **What the calls of a sign-in do.** -/
theorem exec_signInStep {prim : Primitives} {c : Call} {i : Outcome} {l : Attempt}
    (hallows : attempt.allows l c) (hexpects : attempt.expects l c (exec prim db now c i).2) :
    SignInStep db now l c (exec prim db now c i).2 (attempt.next l c (exec prim db now c i).2)
      (exec prim db now c i).1 := by
  rcases l with - | ⟨id, user⟩ | ⟨id, user⟩ | ⟨id, user⟩ | ⟨id, user⟩
  · cases c with
    | recordFailure username =>
      cases i with
      | done => exact .recordOther (by rintro id user ⟨⟩) username
      | failed => exact .quiet (fun _ _ => rfl) (.inl rfl)
    | byUsername username =>
      cases i with
      | done =>
        rcases hf : db.byUsername username with - | ⟨id, user⟩ <;> simp only [exec, Db.read, hf]
        · exact .quiet (fun _ _ => rfl) (.inl rfl)
        · exact .quiet (fun _ _ => rfl)
            (.inr (.inr ⟨rfl, id, user, rfl, (Db.byUsername_spec hf).1⟩))
      | failed => exact .quiet (fun _ _ => rfl) (.inl rfl)
    | byId id =>
      cases i with
      | done =>
        rcases hf : db.users.lookup id with - | user <;> simp only [exec, Db.read, hf]
        · exact .quiet (fun _ _ => rfl) (.inl rfl)
        · exact .quiet (fun _ _ => rfl) (.inr (.inr ⟨rfl, id, user, rfl, hf⟩))
      | failed => exact .quiet (fun _ _ => rfl) (.inl rfl)
    | isLocked | issueMfaPendingToken => cases i <;> exact .quiet (fun _ _ => rfl) (.inl rfl)
    | verifyMfaPendingToken => exact .quiet (fun _ _ => rfl) (.inl rfl)
    | _ => cases hallows
  · cases c with
    | recordFailure username =>
      cases i with
      | done => exact .recordOther (by rintro id user ⟨⟩) username
      | failed => exact .quiet (fun _ _ => rfl) (.inl rfl)
    | verifyCode id' secret code =>
      obtain rfl : id' = id := hallows
      simp only [exec]
      cases prim.codeValid secret code now with
      | false => exact .evaluate id' user secret code
      | true => exact .quiet (fun _ _ => rfl) (.inr (.inl ⟨id', user, rfl, rfl⟩))
    | clear username =>
      obtain rfl : username = user.username := hallows
      by_cases hmfa : user.mfaConfirmedAt.isSome
      · have hnext : ∀ r, attempt.next (.found id user) (.clear user.username) r = .idle :=
          fun r => if_pos hmfa
        rw [hnext]
        cases i with
        | done => exact .forget id user hmfa (.inl ⟨rfl, rfl⟩)
        | failed => exact .forget id user hmfa (.inr ⟨rfl, rfl⟩)
      · have hnext : ∀ r, attempt.next (.found id user) (.clear user.username) r =
            .issuing id user := fun r => if_neg hmfa
        have hnone : user.mfaConfirmedAt = none := by simpa using hmfa
        rw [hnext]
        cases i with
        | done => exact .clear id user (.inr ⟨rfl, hnone⟩) (.inl rfl)
        | failed => exact .clear id user (.inr ⟨rfl, hnone⟩) (.inr rfl)
    | isLocked | byUsername | byId | issueMfaPendingToken =>
      cases i <;> exact .quiet (fun _ _ => rfl) (.inl rfl)
    | verifyMfaPendingToken => exact .quiet (fun _ _ => rfl) (.inl rfl)
    | _ => cases hallows
  · obtain rfl : c = .recordFailure user.username := hallows
    cases i with
    | done => exact .record id user
    | failed => cases hexpects
  · obtain rfl : c = .clear user.username := hallows
    cases i with
    | done => exact .clear id user (.inl rfl) (.inl rfl)
    | failed => exact .clear id user (.inl rfl) (.inr rfl)
  · cases c with
    | insert id' =>
      obtain rfl : id' = id := hallows
      rcases hi : db.insertToken now id' with - | ⟨hash, db'⟩ <;> cases i <;>
        simp only [exec, hi] at hexpects ⊢
      · cases hexpects
      · cases hexpects
      · exact .session id' user hash (Db.insertToken_frame hi).1 (Db.insertToken_frame hi).2
      · cases hexpects
    | forUser | issueAccessToken => cases i <;> exact .quiet (fun _ _ => rfl) (.inl rfl)
    | _ => exact hallows.elim

end Nullnet.Auth
