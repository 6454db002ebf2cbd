import Nullnet.Auth.Accounts

/-! # What the handlers of accounts have read

A handler reads the row of a user, perhaps counts the administrators, and perhaps checks a code against
the secret in the row. The typestate `readings` says what it has to have read before it writes:

* before it takes the role of an administrator or deletes a row, the row, and a count greater than one
  if the row is that of an administrator;
* before it replaces, confirms or clears a secret, the row, and that the code fits the secret in it,
  except for a secret that is not confirmed and is replaced, and for an administrator who resets the
  secret of someone else;
* before it checks a code, the row of the user.

All handlers keep to it (`obeys_readings`). It does not say that what was read is still so. -/

namespace Nullnet.Auth

open Nullnet.Lib Typestate

/-- What a request has read: the row of a user, the number of administrators after that, and the secret
for which a code was shown after that. -/
structure Reading where
  request : AccountRequest
  target : Option (String × User)
  count : Option ℕ
  verified : Option String

/-- The request is one of an administrator to reset the secret of someone else. -/
def AccountRequest.resetsOther (id : String) : AccountRequest → Bool
  | .updateUser ctx id' _ => ctx.role = .admin && id' = id && ctx.userId ≠ id
  | _ => false

namespace Reading

/-- The row was read, and if it is that of an administrator, it is not the only one. -/
def Spares (l : Reading) (id : String) : Prop :=
  ∃ u, l.target = some (id, u) ∧ (u.role = .admin → ∃ n, l.count = some n ∧ 1 < n)

/-- The row was read, and a code was shown for its secret. -/
def Proves (prim : Cipher) (l : Reading) (id : String) (u : User) : Prop :=
  l.target = some (id, u) ∧ ∃ secretEnc secret, u.mfaSecretEnc = some secretEnc ∧
    prim.decrypt secretEnc = some secret ∧ l.verified = some secret

def next (l : Reading) : (c : AccountCall) → AccountReply c → Reading
  | .auth (.byId id), some (some u) => { l with target := some (id, u), count := none, verified := none }
  | .auth .countAdmins, some n => { l with count := some n }
  | .auth (.verifyCode _ secret _), true => { l with verified := some secret }
  | _, _ => l

/-- What has to be known before a call. -/
def Allows (prim : Cipher) (l : Reading) : AccountCall → Prop
  | .auth (.update id _ role _) => role = some .user → l.Spares id
  | .delete id => l.Spares id
  | .setMfaPending id _ => ∃ u, l.target = some (id, u) ∧
      (u.mfaConfirmedAt.isSome → l.Proves prim id u)
  | .confirmMfa id => ∃ u, l.Proves prim id u
  | .auth (.clearMfa id) => l.request.resetsOther id ∨ ∃ u, l.Proves prim id u
  | .auth (.verifyCode id _ _) => ∃ u, l.target = some (id, u)
  | _ => True

end Reading

def readings (prim : Cipher) : Typestate AccountRequest AccountCall AccountReply Answered Reading where
  init q := ⟨q, none, none, none⟩
  next l c r := l.next c r
  allows l c := l.Allows prim c
  expects _ _ _ := True
  ends _ _ := True

section

variable {prim : Cipher} {l : Reading} {target : User} {role : Option Role} {ctx : AuthContext}
  {id : String} {req : UpdateUserReq} {passwordHash : Option String} {c : AccountCall} {user : User}

/-- A call that neither reads nor writes what matters here. -/
def AccountCall.isPlain : AccountCall → Bool
  | .auth (.byId _) | .auth .countAdmins | .auth (.verifyCode ..) => false
  | .auth (.update ..) | .auth (.clearMfa _) => false
  | .auth _ | .newId | .create .. | .generateSecret | .encrypt _ => true
  | .delete _ | .setMfaPending .. | .confirmMfa _ => false

theorem next_of_isPlain (hc : c.isPlain) (r : AccountReply c) : l.next c r = l := by
  rcases c with c | _ | _ | _ | _ | _ | _ | _ <;> first | rfl | cases hc | skip
  cases c <;> first | rfl | cases hc

theorem allows_of_isPlain (hc : c.isPlain) : l.Allows prim c := by
  rcases c with c | _ | _ | _ | _ | _ | _ | _ <;> first | exact trivial | cases hc | skip
  cases c <;> first | exact trivial | cases hc

theorem keeps_of_plain {A : Type} {E : Reading → A → Prop} {p : AccountHandler A}
    (hp : p.Makes (·.isPlain)) (hE : ∀ a, E l a) : (readings prim).Keeps E l p := by
  refine keeps_of_makes (J := (· = l)) hp (fun l' c hl hc => ?_) (fun l' b hl => hl ▸ hE b) rfl
  exact ⟨allows_of_isPlain hc, fun r => (next_of_isPlain hc r).trans hl⟩

theorem keeps_refuse {r : Response} : (readings prim).Obeys l (refuse r) := trivial

/-! ## Users -/

theorem keeps_createHandler (ctx : AuthContext) (req : CreateUserReq) :
    (readings prim).Obeys l (createHandler prim ctx req) := by
  refine keeps_of_plain ?_ fun _ => trivial
  unfold createHandler commitCreate
  repeat' first
    | exact Prog.makes_pure
    | exact Prog.makes_perform rfl
    | refine Prog.makes_bind ?_ fun _ => ?_
    | split

theorem keeps_guardDelete (id : String) (hl : l.target = some (id, target)) :
    (readings prim).Keeps (fun l' r => r = .ok () → l'.Spares id) l (guardDelete target) := by
  unfold guardDelete
  split_ifs with hadmin
  · refine keeps_bind.mpr ⟨trivial, fun r _ => ?_⟩
    cases r with
    | none => exact nofun
    | some n =>
      change (readings prim).Keeps _ _ (if n ≤ 1 then _ else _)
      split_ifs with hn
      · exact nofun
      · exact fun _ => ⟨target, hl, fun _ => ⟨n, rfl, Nat.lt_of_not_le hn⟩⟩
  · exact fun _ => ⟨target, hl, fun h => absurd h hadmin⟩

theorem keeps_deleteHandler (ctx : AuthContext) (id : String) :
    (readings prim).Obeys l (deleteHandler ctx id) := by
  unfold deleteHandler
  split_ifs
  · exact keeps_refuse
  · refine keeps_bind.mpr ⟨trivial, fun r _ => ?_⟩
    rcases r with - | - | target
    · exact keeps_refuse
    · exact keeps_refuse
    · refine keeps_bind.mpr (Keeps.mono (keeps_guardDelete id rfl) ?_)
      rintro l' (resp | ⟨⟩) hl'
      · exact keeps_refuse
      · refine keeps_bind.mpr ⟨hl' rfl, fun r _ => ?_⟩
        cases r with
        | none => exact keeps_refuse
        | some => exact keeps_bind.mpr ⟨trivial, fun _ _ => trivial⟩

theorem keeps_liftGuard (id : String) (hl : l.target = some (id, target)) :
    ((readings prim).comap .auth).Keeps (fun l' r => r = .ok () → l'.request = l.request ∧
      l'.target = l.target ∧ l'.verified = l.verified ∧ (role = some .user → l'.Spares id)) l
      (guardLastAdmin target role) := by
  unfold guardLastAdmin
  split_ifs with hguard
  · refine keeps_bind.mpr ⟨trivial, fun r _ => ?_⟩
    cases r with
    | none => exact nofun
    | some n =>
      change ((readings prim).comap .auth).Keeps _ _ (if n ≤ 1 then _ else _)
      split_ifs with hn
      · exact nofun
      · exact fun _ => ⟨rfl, rfl, rfl, fun _ => ⟨target, hl, fun _ => ⟨n, rfl, Nat.lt_of_not_le hn⟩⟩⟩
  · refine fun _ => ⟨rfl, rfl, rfl, fun hrole => ⟨target, hl, fun hadmin => ?_⟩⟩
    subst hrole
    simp [hadmin] at hguard

theorem keeps_mfaProof_admin (hctx : ctx.role = .admin) (hq : l.request = .updateUser ctx id req)
    (hl : l.target = some (id, target)) :
    ((readings prim).comap .auth).Keeps (fun l' r => r = .ok () →
      l'.request.resetsOther id ∨ ∃ u, l'.Proves prim id u) l
      (mfaProof prim.toPrimitives ctx id target req.mfaCode) := by
  unfold mfaProof
  split_ifs with hself
  · unfold proveMfa
    split
    · exact nofun
    · rename_i secretEnc henc
      split
      · exact nofun
      · rename_i secret hsecret
        split
        · exact nofun
        · refine keeps_bind.mpr ⟨⟨target, hl⟩, fun r _ => ?_⟩
          cases r with
          | false => exact nofun
          | true => exact fun _ => .inr ⟨target, hl, secretEnc, secret, henc, hsecret, rfl⟩
  · refine fun _ => .inl ?_
    rw [hq]
    simp [AccountRequest.resetsOther, hctx, Ne.symm hself]

theorem keeps_revokeSessions' :
    ((readings prim).comap .auth).Keeps (fun _ _ => True) l (revokeSessions id role passwordHash) := by
  unfold revokeSessions
  split_ifs
  · exact keeps_bind.mpr ⟨trivial, fun _ _ => trivial⟩
  · trivial

theorem keeps_resetMfa_admin (hctx : ctx.role = .admin) (hq : l.request = .updateUser ctx id req)
    (hl : l.target = some (id, target)) : ((readings prim).comap .auth).Keeps (fun _ _ => True) l
      (resetMfa prim.toPrimitives ctx id target req role passwordHash) := by
  unfold resetMfa
  split_ifs
  · refine keeps_bind.mpr (Keeps.mono (keeps_mfaProof_admin hctx hq hl) ?_)
    rintro l' (resp | ⟨⟩) hl'
    · trivial
    · refine keeps_bind.mpr ⟨hl' rfl, fun r _ => ?_⟩
      cases r with
      | none => trivial
      | some => exact keeps_revokeSessions'
  · exact keeps_revokeSessions'

theorem keeps_commitUpdate' {username : Option String}
    (hctx : ctx.role = .admin) (hq : l.request = .updateUser ctx id req)
    (hl : l.target = some (id, target)) (hspares : role = some .user → l.Spares id) :
    ((readings prim).comap .auth).Keeps (fun _ _ => True) l
      (commitUpdate prim.toPrimitives ctx id target req username role passwordHash) := by
  refine keeps_bind.mpr ⟨hspares, fun r _ => ?_⟩
  cases r with
  | none => trivial
  | some =>
    unfold updateScopes
    split
    · exact keeps_resetMfa_admin hctx hq hl
    · split
      · trivial
      · refine keeps_bind.mpr ⟨trivial, fun r _ => ?_⟩
        cases r with
        | none => trivial
        | some => exact keeps_resetMfa_admin hctx hq hl

theorem keeps_updateUser (ctx : AuthContext) (id : String) (req : UpdateUserReq)
    (hq : l.request = .updateUser ctx id req) :
    (readings prim).Obeys l (accountHandle prim (.updateUser ctx id req)) := by
  refine keeps_bind.mpr (keeps_embed.mpr ?_)
  unfold updateHandler
  split_ifs with hctx
  · trivial
  · have hctx : ctx.role = .admin := not_not.mp hctx
    refine keeps_bind.mpr ⟨trivial, fun r _ => ?_⟩
    rcases r with - | - | target
    · trivial
    · trivial
    · split
      · trivial
      · trivial
      · refine keeps_bind.mpr (Keeps.mono (keeps_liftGuard id rfl) ?_)
        rintro l' (resp | ⟨⟩) hl'
        · trivial
        · obtain ⟨hq', hl', -, hspares⟩ := hl' rfl
          dsimp only
          split
          · trivial
          · exact keeps_commitUpdate' hctx (hq'.trans hq) hl' hspares

/-! ## One-time codes -/

theorem keeps_proveCurrent (id : String) {code : Option String} (hl : l.target = some (id, user)) :
    (readings prim).Keeps (fun l' r => r = .ok () → l'.target = some (id, user) ∧
      (user.mfaConfirmedAt.isSome → l'.Proves prim id user)) l (proveCurrent prim id user code) := by
  unfold proveCurrent
  split_ifs with hnone
  · refine fun _ => ⟨hl, fun hsome => ?_⟩
    rw [Option.isNone_iff_eq_none.mp hnone] at hsome
    cases hsome
  · split
    · exact nofun
    · rename_i secretEnc henc
      split
      · exact nofun
      · rename_i secret hsecret
        split
        · exact nofun
        · refine keeps_bind.mpr ⟨⟨user, hl⟩, fun r _ => ?_⟩
          cases r with
          | false => exact nofun
          | true => exact fun _ => ⟨hl, fun _ => ⟨hl, secretEnc, secret, henc, hsecret, rfl⟩⟩

theorem keeps_storeSecret (hl : l.target = some (id, user))
    (hproves : user.mfaConfirmedAt.isSome → l.Proves prim id user) :
    (readings prim).Obeys l (storeSecret prim id user) := by
  refine keeps_bind.mpr ⟨trivial, fun secret _ => ?_⟩
  rw [keeps_ret]
  split
  · exact keeps_refuse
  · refine keeps_bind.mpr ⟨trivial, fun r _ => ?_⟩
    cases r with
    | none => exact keeps_refuse
    | some secretEnc =>
      refine keeps_bind.mpr ⟨⟨user, hl, hproves⟩, fun r _ => ?_⟩
      cases r with
      | none => exact keeps_refuse
      | some => trivial

theorem keeps_setupHandler (ctx : AuthContext) (code : Option String) :
    (readings prim).Obeys l (setupHandler prim ctx code) := by
  refine keeps_bind.mpr ⟨trivial, fun r _ => ?_⟩
  rcases r with - | - | user
  · exact keeps_refuse
  · exact keeps_refuse
  · refine keeps_bind.mpr (Keeps.mono (keeps_proveCurrent ctx.userId rfl) ?_)
    rintro l' (resp | ⟨⟩) hl'
    · exact keeps_refuse
    · obtain ⟨htarget, hproves⟩ := hl' rfl
      exact keeps_storeSecret htarget hproves

theorem keeps_withCode {code noSecret failed : String}
    {write : AccountHandler (Option Unit)} (hwrite : ∀ l', (∃ u, l'.Proves prim ctx.userId u) →
      (readings prim).Keeps (fun _ _ => True) l' write) :
    (readings prim).Obeys l (withCode prim ctx code noSecret failed write) := by
  refine keeps_bind.mpr (keeps_bind.mpr ⟨trivial, fun r _ => ?_⟩)
  rcases r with - | - | user
  · exact keeps_refuse
  · exact keeps_refuse
  · refine keeps_ret.mpr (keeps_ret.mpr ?_)
    rcases henc : user.mfaSecretEnc with - | secretEnc
    · exact keeps_refuse
    · rcases hsecret : prim.decrypt secretEnc with - | secret
      · simp only [Option.map_some, hsecret]
        exact keeps_refuse
      · simp only [Option.map_some, hsecret]
        refine keeps_bind.mpr ⟨⟨user, rfl⟩, fun r _ => ?_⟩
        cases r with
        | false => exact keeps_refuse
        | true =>
          refine keeps_bind.mpr (Keeps.mono (hwrite _ ⟨user, rfl, secretEnc, secret, henc, hsecret, rfl⟩) ?_)
          rintro l' (- | ⟨⟩) -
          · exact keeps_refuse
          · trivial

theorem keeps_confirmHandler (ctx : AuthContext) (code : String) :
    (readings prim).Obeys l (confirmHandler prim ctx code) :=
  keeps_withCode fun _ hl => ⟨hl, fun _ _ => trivial⟩

theorem keeps_disableHandler (ctx : AuthContext) (code : String) :
    (readings prim).Obeys l (disableHandler prim ctx code) :=
  keeps_withCode fun _ hl => ⟨.inr hl, fun _ _ => trivial⟩

/-- **All handlers keep to the typestate.** -/
theorem obeys_readings (q : AccountRequest) :
    (readings prim).Obeys ((readings prim).init q) (accountHandle prim q) := by
  cases q with
  | createUser ctx req => exact keeps_createHandler ctx req
  | updateUser ctx id req => exact keeps_updateUser ctx id req rfl
  | deleteUser ctx id => exact keeps_deleteHandler ctx id
  | mfaSetup ctx code => exact keeps_setupHandler ctx code
  | mfaConfirm ctx code => exact keeps_confirmHandler ctx code
  | mfaDisable ctx code => exact keeps_disableHandler ctx code

theorem tracks_readings {s : Accounts} {db : Db} {clock : ℕ} {ok : Accounts → AccountAction → Prop}
    (h : Reach (Accounts.step prim) ok (Pool.new db clock) s) : s.Tracks (readings prim) := by
  refine h.invariant _ (Pool.tracks_new db clock) fun s a s' hs _ hstep => ?_
  refine hs.step ?_ (Pool.step_steps hstep)
  cases a with
  | start q => exact obeys_readings q
  | go j i => exact fun _ _ _ _ => trivial
  | drop j => trivial
  | tick d => trivial

end

end Nullnet.Auth
