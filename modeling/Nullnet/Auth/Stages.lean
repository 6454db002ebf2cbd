import Nullnet.Auth.Tokens

/-! # The stages of a user update

`update_handler` commits a new role or password, then sets the scopes, then resets the secret, and then
revokes the refresh tokens of the user. It returns early if one of the parts in between fails, and it
does not look at whether the tokens were revoked. The typestate `stages` follows a request through this.
Under `Sessions.finishesUpdate` the handler gets from the commit to the revocation (`fits_stages`). -/

namespace Nullnet.Auth

open Nullnet.Lib

/-! ## Stages of an update -/

/-- Where a request is: it has not committed a new role or password, and has read the row of a user; it
has committed one; it has ended the sessions of the user as well. -/
inductive Stage
  | before (q : Request) (target : Option User)
  | committed (id : String)
  | ended (id : String)

/-- The parts of the handler after the commit can get through: the scopes are known, and users who reset
their own secret have one, and show a code. -/
def UpdateUserReq.completes (prim : Primitives) (ctx : AuthContext) (id : String) (target : User)
    (req : UpdateUserReq) : Bool :=
  (req.scopes.all fun raw => raw.all (· ∈ Scope.ALL)) &&
    (!(req.resetMfa && id = ctx.userId) ||
      (target.mfaSecretEnc.bind prim.decrypt).isSome && req.mfaCode.isSome)

/-- A commit is expected of a request that can get through; after it, all calls are expected to succeed. -/
def stages (prim : Primitives) : Typestate Request Call Reply Response Stage where
  init q := .before q none
  next l c r := match l, c, r with
    | .before q _, .byId _, some (some target) => .before q (some target)
    | .before q target, .update id _ role passwordHash, some () =>
      if role.isSome || passwordHash.isSome then .committed id else .before q target
    | .committed id, .revokeAllForUser id', some () => if id' = id then .ended id else .committed id
    | l, _, _ => l
  allows l c := match l, c with
    | .before .., _ => True
    | _, .update .. => False
    | _, _ => True
  expects l c r := match l, c, r with
    | .before (.updateUser ctx id req) (some target), .update _ _ role passwordHash, some () =>
      role.isSome || passwordHash.isSome → req.completes prim ctx id target
    | .committed _, .setForUser .., r => r.isSome
    | .committed _, .clearMfa _, r => r.isSome
    | .committed _, .revokeAllForUser _, r => r.isSome
    | .committed _, .verifyCode .., r => r
    | _, _, _ => True
  ends l _ := ∀ id, l ≠ .committed id

/-- A new role or password is committed for a request that can get through, and after that, the calls
of the request succeed. -/
def Stage.finishes (prim : Primitives) (db : Db) (now : ℕ) (i : Outcome) : Stage → Call → Bool
  | .before (.updateUser ctx id req) (some target), .update id' username role passwordHash =>
    !(i = .done && (db.update id' username role passwordHash).isSome &&
      (role.isSome || passwordHash.isSome)) || req.completes prim ctx id target
  | .committed _, .setForUser id scopes => i = .done && (db.setForUser id scopes).1
  | .committed _, .clearMfa _ => i = .done
  | .committed _, .revokeAllForUser _ => i = .done
  | .committed _, .verifyCode _ secret code => prim.codeValid secret code now
  | _, _ => true

/-- The condition on a step: an update that changes the role or the password gets through. -/
def Sessions.finishesUpdate (prim : Primitives) (s : Sessions) : AuthAction → Bool
  | .go j i => (s.jobs.lookup j).all fun job => job.prog.next.all fun c =>
      (s.stateOf (stages prim) j job.request).finishes prim s.world s.clock i c
  | _ => true

section

variable {prim : Primitives} {ctx : AuthContext} {id : String} {target : User} {req : UpdateUserReq}
  {username : Option String} {role : Option Role} {passwordHash : Option String}

open Typestate

theorem keeps_revokeSessions (hchange : role.isSome || passwordHash.isSome) :
    (stages prim).Obeys (.committed id) (revokeSessions id role passwordHash) := by
  unfold Obeys revokeSessions
  rw [if_pos hchange]
  refine keeps_bind.mpr ⟨trivial, fun r hr => ?_⟩
  obtain ⟨-, rfl⟩ := Option.isSome_iff_exists.mp hr
  intro id' h
  simp [stages] at h

theorem keeps_mfaProof (hreset : req.resetMfa) (hreq : req.completes prim ctx id target) :
    (stages prim).Keeps (fun l r => l = .committed id ∧ r = .ok ()) (.committed id)
      (mfaProof prim ctx id target req.mfaCode) := by
  unfold mfaProof
  split_ifs with hself
  · obtain ⟨-, hreq⟩ := Bool.and_eq_true_iff.mp hreq
    simp only [hreset, hself, decide_true, Bool.and_self, Bool.not_true, Bool.false_or,
      Bool.and_eq_true, Option.isSome_iff_exists] at hreq
    obtain ⟨⟨secret, hsecret⟩, code, hcode⟩ := hreq
    obtain ⟨secretEnc, henc, hsecret⟩ := Option.bind_eq_some_iff.mp hsecret
    unfold proveMfa
    rw [henc]
    dsimp only
    rw [hsecret, hcode]
    refine keeps_bind.mpr ⟨trivial, fun r hr => ?_⟩
    obtain rfl : r = true := hr
    exact ⟨rfl, rfl⟩
  · exact ⟨rfl, rfl⟩

theorem keeps_resetMfa (hchange : role.isSome || passwordHash.isSome)
    (hreq : req.completes prim ctx id target) : (stages prim).Obeys (.committed id)
      (resetMfa prim ctx id target req role passwordHash) := by
  unfold Obeys resetMfa
  split_ifs with hreset
  · refine keeps_bind.mpr (Keeps.mono (keeps_mfaProof hreset hreq) ?_)
    rintro l r ⟨rfl, rfl⟩
    refine keeps_bind.mpr ⟨trivial, fun r hr => ?_⟩
    obtain ⟨-, rfl⟩ := Option.isSome_iff_exists.mp hr
    exact keeps_revokeSessions hchange
  · exact keeps_revokeSessions hchange

theorem keeps_updateScopes (hchange : role.isSome || passwordHash.isSome)
    (hreq : req.completes prim ctx id target) : (stages prim).Obeys (.committed id)
      (updateScopes prim ctx id target req role passwordHash) := by
  unfold Obeys updateScopes
  have hall := (Bool.and_eq_true_iff.mp hreq).1
  rcases hs : req.scopes with - | raw
  · exact keeps_resetMfa hchange hreq
  · rw [hs, Option.all_some] at hall
    have hknown : parseScopes raw = .ok raw := by
      unfold parseScopes
      rw [List.find?_eq_none.mpr fun x hx => ?_]
      simpa using List.all_eq_true.mp hall x hx
    dsimp only
    rw [hknown]
    refine keeps_bind.mpr ⟨trivial, fun r hr => ?_⟩
    obtain ⟨-, rfl⟩ := Option.isSome_iff_exists.mp hr
    exact keeps_resetMfa hchange hreq

theorem stages_of_makes {p : Handler Response} (hp : p.Makes fun c => c.isUpdate = false)
    {q : Request} {target : Option User} : (stages prim).Obeys (.before q target) p := by
  refine keeps_of_makes (J := fun l => ∃ q target, l = .before q target) hp
    (fun l c hl hc => ?_) (fun l b hl id' => ?_) ⟨q, target, rfl⟩
  · obtain ⟨q, target, rfl⟩ := hl
    refine ⟨trivial, fun r => ?_⟩
    cases c with
    | update => cases hc
    | byId id =>
      rcases r with - | - | target'
      · exact ⟨q, target, rfl⟩
      · exact ⟨q, target, rfl⟩
      · exact ⟨q, target', rfl⟩
    | _ => exact ⟨q, target, rfl⟩
  · obtain ⟨q, target, rfl⟩ := hl
    rintro ⟨⟩

theorem keeps_commitUpdate : (stages prim).Obeys (.before (.updateUser ctx id req) (some target))
    (commitUpdate prim ctx id target req username role passwordHash) := by
  have hrest : ∀ role passwordHash,
      (updateScopes prim ctx id target req role passwordHash).Makes fun c => c.isUpdate = false := by
    intro role passwordHash
    unfold updateScopes resetMfa mfaProof proveMfa revokeSessions
    repeat' first
      | exact Prog.makes_pure
      | exact Prog.makes_perform rfl
      | refine Prog.makes_bind ?_ fun _ => ?_
      | split
  refine keeps_bind.mpr ⟨trivial, fun r hr => ?_⟩
  cases r with
  | none => rintro id' ⟨⟩
  | some =>
    by_cases hchange : role.isSome || passwordHash.isSome
    · have hnext : (stages prim).next (.before (.updateUser ctx id req) (some target))
          (.update id username role passwordHash) (some ()) = .committed id := if_pos hchange
      rw [hnext]
      exact keeps_updateScopes hchange (hr hchange)
    · have hnext : (stages prim).next (.before (.updateUser ctx id req) (some target))
          (.update id username role passwordHash) (some ()) =
            .before (.updateUser ctx id req) (some target) := if_neg hchange
      rw [hnext]
      exact stages_of_makes (hrest role passwordHash)

theorem keeps_guardLastAdmin {q : Request} : (stages prim).Keeps
    (fun l _ => l = .before q (some target)) (.before q (some target))
      (guardLastAdmin target role) := by
  unfold guardLastAdmin
  split_ifs
  · refine keeps_bind.mpr ⟨trivial, fun r _ => ?_⟩
    rcases r with - | n
    · exact rfl
    · change (stages prim).Keeps _ _ (if n ≤ 1 then _ else _)
      split_ifs <;> exact rfl
  · exact rfl

theorem keeps_updateHandler : (stages prim).Obeys (.before (.updateUser ctx id req) none)
    (updateHandler prim ctx id req) := by
  have hreturn : ∀ (target : Option User) (resp : Response), (stages prim).Obeys
      (.before (.updateUser ctx id req) target) (pure resp) := by
    rintro target resp id' ⟨⟩
  unfold updateHandler
  split_ifs
  · exact hreturn none _
  · refine keeps_bind.mpr ⟨trivial, fun r _ => ?_⟩
    rcases r with - | - | target
    · exact hreturn none _
    · exact hreturn none _
    · split
      · exact hreturn (some target) _
      · exact hreturn (some target) _
      · refine keeps_bind.mpr (keeps_guardLastAdmin.mono ?_)
        rintro l r rfl
        rcases r with resp | -
        · exact hreturn (some target) _
        · dsimp only
          split
          · exact hreturn (some target) _
          · exact keeps_commitUpdate

theorem obeys_stages (q : Request) : (stages prim).Obeys (.before q none) (handle prim q) := by
  cases q with
  | updateUser ctx id req => exact keeps_updateHandler
  | _ =>
    refine stages_of_makes ((makes_handle prim _).mono fun c hc => ?_)
    cases c <;> first | rfl | cases hc

theorem finishes_expects {db : Db} {now : ℕ} {i : Outcome} {l : Stage} {c : Call}
    (h : l.finishes prim db now i c) : (stages prim).expects l c (exec prim db now c i).2 := by
  rcases l with ⟨q, target⟩ | id | id
  · cases c with
    | update id' username role passwordHash =>
      rcases q with - | - | - | - | ⟨ctx, id, req⟩ <;> try trivial
      rcases target with - | target
      · trivial
      · rcases hu : db.update id' username role passwordHash with - | db' <;>
          rcases i with - | n <;> simp only [exec, hu, Db.write] <;> try trivial
        intro hchange
        simpa [Stage.finishes, hu, hchange] using h
    | _ => cases q <;> cases target <;> trivial
  · cases c with
    | setForUser id scopes =>
      obtain ⟨hi, hall⟩ := Bool.and_eq_true_iff.mp h
      obtain rfl := of_decide_eq_true hi
      exact Option.isSome_iff_exists.mpr ⟨(), if_pos hall⟩
    | clearMfa | revokeAllForUser =>
      obtain rfl := of_decide_eq_true h
      exact rfl
    | verifyCode userId secret code => exact h
    | _ => trivial
  · cases c <;> trivial

theorem fits_stages {s : Sessions} {a : AuthAction} (hok : s.finishesUpdate prim a) :
    s.Fits (stages prim) (service prim) a := by
  cases a with
  | start q => exact obeys_stages q
  | drop | tick => trivial
  | go j i =>
    intro q c k hj
    rw [Sessions.finishesUpdate, hj] at hok
    exact finishes_expects hok

end

end Nullnet.Auth
