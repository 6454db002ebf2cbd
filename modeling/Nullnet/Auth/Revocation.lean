import Nullnet.Auth.SingleUse
import Nullnet.Auth.Stages

/-! # A new role or password ends the sessions of a user

If `update_handler` gets from the commit of a new role or password to the revocation of the tokens
(`Sessions.finishesUpdate`), and no token is exchanged after it was revoked (`Sessions.rotatesUnrevoked`), then
after the handler has returned, no token is active that was issued to the user before the change, or
derived from such a token (`update_ends_sessions`).

Without the first condition a new password together with an unknown scope leaves the sessions as they
are; without the second one a refresh that has found its token before the change exchanges it
afterwards (`sessions_outlive_update`). -/

namespace Nullnet.Auth

open Nullnet.Lib

/-! ## Tokens and their users -/

namespace Sessions

def owner (s : Sessions) (hash : ℕ) : Option String := (s.world.tokens.lookup hash).map (·.userId)

def active (s : Sessions) (hash : ℕ) : Bool := (s.world.tokens.lookup hash).any (·.isActive s.clock)

/-- A token is derived from another one by exchanges. -/
def Derived (s : Sessions) : ℕ → ℕ → Prop := Relation.ReflTransGen fun old new => (old, new) ∈ s.exchanges

end Sessions

section

variable {prim : Primitives} {s s' : Sessions} {a : AuthAction} {hash : ℕ}

theorem owner_step {id : String} (hs : Pool.Steps (service prim) s a s')
    (h : s.owner hash = some id) : s'.owner hash = some id := by
  obtain ⟨row, hrow, rfl⟩ := Option.map_eq_some_iff.mp h
  obtain ⟨row', hrow', huser, -⟩ := steps_keeps hs hash row hrow
  exact Option.map_eq_some_iff.mpr ⟨row', hrow', huser⟩

theorem not_active_of_revoked (h : s.revoked hash) : s.active hash = false := by
  obtain ⟨row, hrow, hrev⟩ := (Option.any_eq_true _ _).mp h
  rw [Sessions.active, hrow, Option.any_some, RefreshToken.isActive,
    Option.isNone_eq_false_iff.mpr hrev, Bool.false_and]

end

/-- What is known of tokens: the ones that requests have found have users, and an exchange keeps the
user. -/
structure Lineage (s : Sessions) : Prop where
  tracks : s.Tracks foundToken
  found : ∀ j q hash row, s.stateOf foundToken j q = some (hash, row) →
    s.owner hash = some row.userId
  exchanges : ∀ e ∈ s.exchanges, ∃ id, s.owner e.1 = some id ∧ s.owner e.2 = some id

namespace Lineage

variable {prim : Primitives} {s s' : Sessions} {a : AuthAction} {hash hash' : ℕ}

theorem new (db : Db) (clock : ℕ) : Lineage (Pool.new db clock) := by
  refine ⟨Pool.tracks_new db clock, ?_, ?_⟩
  · rintro j q hash row ⟨⟩
  · rintro e ⟨⟩

theorem step (h : Lineage s) (hs : Pool.Steps (service prim) s a s') : Lineage s' := by
  have howner : ∀ hash id, s.owner hash = some id → s'.owner hash = some id :=
    fun _ _ => owner_step hs
  have htracks := tracks_step h.tracks hs
  have hkept : ∀ e ∈ s.exchanges, ∃ id, s'.owner e.1 = some id ∧ s'.owner e.2 = some id := by
    intro e he
    obtain ⟨id, h1, h2⟩ := h.exchanges e he
    exact ⟨id, howner _ _ h1, howner _ _ h2⟩
  cases hs with
  | start | drop | tick => exact ⟨htracks, h.found, hkept⟩
  | go j i q c k hj =>
    refine ⟨htracks, fun j' q' hash row hfound => ?_, fun e he => ?_⟩
    · rw [Pool.stateOf_perform] at hfound
      split_ifs at hfound with heq
      · rcases found_exec hfound with hfound | hfound
        · exact howner _ _ (h.found j' q' hash row hfound)
        · have hrow := (Option.filter_eq_some_iff.mp hfound).1
          exact howner _ _ (Option.map_eq_some_iff.mpr ⟨row, hrow, rfl⟩)
      · exact howner _ _ (h.found j' q' hash row hfound)
    · rw [exchanges_perform] at he
      rcases List.mem_append.mp he with he | he
      · -- the call exchanges the token that the request has found
        obtain ⟨userId, rfl, -, ⟨row', hrow', huser'⟩, -⟩ :=
          (exec_tokenStep prim s.world s.clock c i).of_exchanged (Option.mem_toList.mp he)
        obtain ⟨row, hfound, huser⟩ := h.tracks.allows hj
        exact ⟨userId, howner _ _ (huser ▸ h.found j q _ row hfound),
          Option.map_eq_some_iff.mpr ⟨row', hrow', huser'⟩⟩
      · exact hkept e he

theorem owner_of_derived (h : Lineage s) {id : String}
    (howner : s.owner hash = some id) (hd : s.Derived hash hash') : s.owner hash' = some id := by
  induction hd with
  | refl => exact howner
  | tail _ he ih =>
    obtain ⟨id', h1, h2⟩ := h.exchanges _ he
    rw [ih] at h1
    rw [h2, h1]

theorem derived_cons (h : Lineage s) {old new : ℕ}
    (hx : s'.exchanges = (old, new) :: s.exchanges) (hnew : s.owner new = none)
    (hd : s'.Derived hash hash') :
    s.Derived hash hash' ∨ hash' = new ∧ s.Derived hash old := by
  induction hd with
  | refl => exact .inl .refl
  | tail _ he ih =>
    rw [hx] at he
    rcases ih with hd | ⟨rfl, hd⟩
    · rcases List.mem_cons.mp he with he | he
      · cases he
        exact .inr ⟨rfl, hd⟩
      · exact .inl (hd.tail he)
    · -- nothing has been derived from the new token yet
      rcases List.mem_cons.mp he with he | he
      · cases he
        exact .inr ⟨rfl, hd⟩
      · obtain ⟨id', h1, -⟩ := h.exchanges _ he
        cases hnew.symm.trans h1

end Lineage

/-! ## After the commit -/

section

variable {prim : Primitives} {id : String}

theorem stages_next_committed (c : Call) (r : Reply c) :
    (stages prim).next (.committed id) c r = .committed id ∨
      (stages prim).next (.committed id) c r = .ended id ∧ sessionsEnded c r = some id := by
  cases c with
  | revokeAllForUser id' =>
    cases r with
    | none => exact .inl rfl
    | some =>
      by_cases heq : id' = id
      · exact .inr ⟨if_pos heq, congrArg some heq⟩
      · exact .inl (if_neg heq)
  | _ => exact .inl rfl

theorem stages_next_ended (c : Call) (r : Reply c) :
    (stages prim).next (.ended id) c r = .ended id := by
  cases c <;> rfl

theorem not_exchanged_of_sessionsEnded {c : Call} {r : Reply c} (h : sessionsEnded c r = some id) :
    exchanged c r = none := by
  cases c <;> first | rfl | cases h

end

/-- After the commit of request `t` for the user `id`: either the request goes on, or the tokens that
are derived from those before the commit are revoked. -/
structure Ending (prim : Primitives) (s₀ : Sessions) (id : String) (t : ℕ) (q : Request) (s : Sessions) :
    Prop where
  lineage : Lineage s
  tracks : s.Tracks (stages prim)
  old : ∀ hash, s₀.owner hash = some id → s.owner hash = some id
  known : t < s.nextJob
  request : ∀ job, s.jobs.lookup t = some job → job.request = q
  stage : s.stateOf (stages prim) t q = .committed id ∨ s.stateOf (stages prim) t q = .ended id
  spent : s.stateOf (stages prim) t q = .ended id →
    ∀ hash hash', s₀.owner hash = some id → s.Derived hash hash' → s.revoked hash'

namespace Ending

variable {prim : Primitives} {s₀ s s' : Sessions} {a : AuthAction} {id : String} {t : ℕ} {q : Request}

theorem stage_step (h : Ending prim s₀ id t q s) (hs : Pool.Steps (service prim) s a s') :
    s'.stateOf (stages prim) t q = s.stateOf (stages prim) t q ∨
      s'.stateOf (stages prim) t q = .ended id ∧ s.stateOf (stages prim) t q = .committed id ∧
        s'.exchanges = s.exchanges ∧ ∀ hash, s'.owner hash = some id → s'.revoked hash := by
  cases hs with
  | start | drop | tick => exact .inl rfl
  | go j i q' c k hj =>
    rw [Pool.stateOf_perform]
    split_ifs with heq
    · rcases h.stage with hst | hst
      · rw [hst]
        rcases stages_next_committed c (exec prim s.world s.clock c i).2 with hn | ⟨hn, he⟩
        · exact .inl hn
        · refine .inr ⟨hn, rfl, ?_, fun hash howner => ?_⟩
          · rw [exchanges_perform, not_exchanged_of_sessionsEnded he]
            rfl
          · obtain ⟨row, hrow, huser⟩ := Option.map_eq_some_iff.mp howner
            have hrev := (exec_tokenStep prim s.world s.clock c i).of_sessionsEnded he hrow huser
            exact (Option.any_eq_true _ _).mpr ⟨row, hrow, hrev⟩
      · rw [hst]
        exact .inl (stages_next_ended c _)
    · exact .inl rfl

theorem spent_step (h : Ending prim s₀ id t q s) (hst : s.stateOf (stages prim) t q = .ended id)
    (hok : s.rotatesUnrevoked a) (hs : Pool.Steps (service prim) s a s') {hash hash' : ℕ}
    (howner : s₀.owner hash = some id) (hd : s'.Derived hash hash') : s'.revoked hash' := by
  have hspent := h.spent hst hash
  have hrev : ∀ hash', s.revoked hash' → s'.revoked hash' := fun _ => revoked_step hs
  cases hs with
  | start | drop | tick => exact hspent hash' howner hd
  | go j i q' c k hj =>
    rcases hx : exchanged c (exec prim s.world s.clock c i).2 with - | ⟨old, new⟩
    · have hsame : Sessions.exchanges (s.perform (service prim) j q' c k i) = s.exchanges := by
        rw [exchanges_perform, hx]
        rfl
      unfold Sessions.Derived at hd
      rw [hsame] at hd
      exact hrev hash' (hspent hash' howner hd)
    · have hnew : Sessions.exchanges (s.perform (service prim) j q' c k i) =
          (old, new) :: s.exchanges := by
        rw [exchanges_perform, hx]
        rfl
      obtain ⟨-, -, hfresh, -⟩ := (exec_tokenStep prim s.world s.clock c i).of_exchanged hx
      have hfresh : s.owner new = none := by
        rw [Sessions.owner, hfresh]
        rfl
      rcases h.lineage.derived_cons hnew hfresh hd with hd | ⟨rfl, hd⟩
      · exact hrev hash' (hspent hash' howner hd)
      · -- the token that is exchanged is a derived one, so it is revoked
        obtain ⟨row, hrow, hnone⟩ := row_of_rotatesUnrevoked hok hj hx
        have := hspent old howner hd
        rw [Sessions.revoked, hrow, Option.any_some, hnone] at this
        cases this

theorem step (h : Ending prim s₀ id t q s) (hok : s.rotatesUnrevoked a)
    (hfinish : s.finishesUpdate prim a) (hs : Pool.Steps (service prim) s a s') :
    Ending prim s₀ id t q s' := by
  have hlineage := h.lineage.step hs
  have hold := fun hash howner => owner_step hs (h.old hash howner)
  refine ⟨hlineage, h.tracks.step (fits_stages hfinish) hs, hold, ?_, fun job hj => ?_, ?_,
    fun hst hash hash' howner hd => ?_⟩
  · cases hs with
    | start => exact Nat.lt_succ_of_lt h.known
    | go | drop | tick => exact h.known
  · obtain ⟨job0, hj0, hreq⟩ := hs.request h.known hj
    rw [← hreq, h.request job0 hj0]
  · rcases h.stage_step hs with heq | ⟨heq, -⟩
    · rw [heq]
      exact h.stage
    · exact .inr heq
  · rcases h.stage_step hs with heq | ⟨-, -, hx, hrev⟩
    · exact h.spent_step (heq ▸ hst) hok hs howner hd
    · exact hrev hash' (hlineage.owner_of_derived (hold hash howner) hd)

theorem ended (h : Ending prim s₀ id t q s) (hret : (s.resultOf t).isSome) :
    s.stateOf (stages prim) t q = .ended id := by
  obtain ⟨resp, hret⟩ := Option.isSome_iff_exists.mp hret
  obtain ⟨⟨q', prog⟩, hj, hret⟩ := Option.bind_eq_some_iff.mp hret
  cases prog with
  | call => cases hret
  | ret resp' =>
    obtain rfl : q' = q := h.request _ hj
    have hends := h.tracks.ends hj
    exact h.stage.resolve_left (hends id)

end Ending

/-! ## The sessions of the user end -/

/-- The condition on a step: tokens are exchanged only while they are not revoked, and an update that
changes the role or the password gets through. -/
def Sessions.revokes (prim : Primitives) (s : Sessions) (a : AuthAction) : Prop :=
  s.rotatesUnrevoked a ∧ s.finishesUpdate prim a

instance (prim : Primitives) (s : Sessions) (a : AuthAction) : Decidable (s.revokes prim a) :=
  inferInstanceAs (Decidable (_ ∧ _))

section

variable {prim : Primitives} {db : Db} {clock : ℕ} {s₀ s₁ : Sessions} {t : ℕ} {id : String}
  {username : Option String} {role : Option Role} {passwordHash : Option String}

theorem before_commit
    (hr : Reach (Sessions.step prim) (fun s a => s.revokes prim a) (Pool.new db clock) s₀) :
    Lineage s₀ ∧ s₀.Tracks (stages prim) := by
  refine hr.invariant (fun s => Lineage s ∧ s.Tracks (stages prim))
    ⟨.new db clock, Pool.tracks_new db clock⟩ ?_
  rintro s a s' ⟨hlineage, htracks⟩ ⟨-, hfinish⟩ hs
  have hs := Pool.step_steps hs
  exact ⟨hlineage.step hs, htracks.step (fits_stages hfinish) hs⟩

theorem after_commit (hlineage : Lineage s₀) (htracks : s₀.Tracks (stages prim))
    (hcall : s₀.nextCall t = some (.update id username role passwordHash))
    (hchange : role.isSome || passwordHash.isSome)
    (hcommit : (s₀.world.update id username role passwordHash).isSome)
    (hok : s₀.revokes prim (.go t .done)) (hs : s₀.step prim (.go t .done) = some s₁) :
    ∃ q, Ending prim s₀ id t q s₁ := by
  have hs := Pool.step_steps hs
  have hlineage1 := hlineage.step hs
  have htracks1 := htracks.step (fits_stages hok.2) hs
  have hold : ∀ hash, s₀.owner hash = some id → s₁.owner hash = some id := fun _ => owner_step hs
  cases hs with
  | go j i q c k hj =>
    obtain rfl : c = .update id username role passwordHash := by
      rw [Pool.nextCall, hj] at hcall
      exact Option.some.inj hcall
    have hstage : Pool.stateOf (stages prim) (s₀.perform (service prim) t q _ k .done) t q =
        .committed id := by
      rw [Pool.stateOf_perform, if_pos rfl]
      have hallows := htracks.allows hj
      obtain ⟨db', hdb'⟩ := Option.isSome_iff_exists.mp hcommit
      have hreply : ((service prim).exec s₀.world s₀.clock
          (.update id username role passwordHash) .done).2 = some () := by
        simp only [service, exec, hdb', Db.write]
      rw [hreply]
      rcases hst : s₀.stateOf (stages prim) t q with ⟨q', target⟩ | id' | id' <;>
        rw [hst] at hallows
      · exact if_pos hchange
      · exact hallows.elim
      · exact hallows.elim
    refine ⟨q, hlineage1, htracks1, hold, htracks.id t _ hj, fun job hj' => ?_, .inl hstage,
      fun hst => ?_⟩
    · rw [Pool.lookup_perform, if_pos rfl] at hj'
      exact Option.some.inj hj' ▸ rfl
    · cases hstage.symm.trans hst

end

/-- **A new role or password ends the sessions of the user.** Along every run under the condition: once
a request has committed a new role or password of a user, and has returned, no token is active any more
that was issued to the user before the commit, or is derived from such a token. -/
theorem update_ends_sessions (prim : Primitives) (db : Db) (clock : ℕ) (s₀ s₁ s₂ s₃ : Sessions) (t : ℕ)
    (id : String) (username : Option String) (role : Option Role) (passwordHash : Option String)
    (h₀ : Reach (Sessions.step prim) (fun s a => s.revokes prim a) (Pool.new db clock) s₀)
    (hcall : s₀.nextCall t = some (.update id username role passwordHash))
    (hchange : role.isSome || passwordHash.isSome)
    (hcommit : (s₀.world.update id username role passwordHash).isSome)
    (hok : s₀.revokes prim (.go t .done)) (h₁ : s₀.step prim (.go t .done) = some s₁)
    (h₂ : Reach (Sessions.step prim) (fun s a => s.revokes prim a) s₁ s₂)
    (hret : (s₂.resultOf t).isSome)
    (h₃ : Reach (Sessions.step prim) (fun s a => s.revokes prim a) s₂ s₃) :
    ∀ hash hash', s₀.owner hash = some id → s₃.Derived hash hash' → s₃.active hash' = false := by
  obtain ⟨hlineage, htracks⟩ := before_commit h₀
  obtain ⟨q, hending⟩ := after_commit hlineage htracks hcall hchange hcommit hok h₁
  have hending₂ : Ending prim s₀ id t q s₂ := h₂.invariant _ hending
    fun s a s' h hok hs => h.step hok.1 hok.2 (Pool.step_steps hs)
  have hending₃ : Ending prim s₀ id t q s₃ ∧ s₃.stateOf (stages prim) t q = .ended id := by
    refine h₃.invariant (fun s => Ending prim s₀ id t q s ∧ s.stateOf (stages prim) t q = .ended id)
      ⟨hending₂, hending₂.ended hret⟩ ?_
    rintro s a s' ⟨h, hst⟩ hok hs
    have hs := Pool.step_steps hs
    refine ⟨h.step hok.1 hok.2 hs, ?_⟩
    rcases h.stage_step hs with heq | ⟨heq, -⟩
    · rw [heq, hst]
    · exact heq
  intro hash hash' howner hd
  exact not_active_of_revoked (hending₃.1.spent hending₃.2 hash hash' howner hd)

/-- An administrator gives alice a new password and scopes. -/
def newSecret (scopes : Option (List String)) : Request :=
  .updateUser ⟨"u2", .admin⟩ "u1" ⟨none, some "another secret", none, none, scopes, false, none⟩

def newSecretCommit : Call := .update "u1" none none (some "another secret")

/-- The new password comes with a scope that is unknown: it is committed, the request is turned down, and
the token stays active. A refresh has found the token before a new password, and exchanges it after the
sessions have been ended: the token that it gets is active. -/
theorem sessions_outlive_update :
    (∃ s₀ s₁, Reach (Sessions.step .plain) anyStep (Pool.new Db.signedIn 0) s₀ ∧
      s₀.owner 0 = some "u1" ∧ s₀.nextCall 0 = some newSecretCommit ∧
      s₀.step .plain (.go 0 .done) = some s₁ ∧
      (s₁.world.users.lookup "u1").map (·.passwordHash) = some "another secret" ∧
      s₁.resultOf 0 = some (rejected 400 "unknown scope 'nope'") ∧ s₁.active 0) ∧
    ∃ s₀ s₁ s₂, Reach (Sessions.step .plain) anyStep (Pool.new Db.signedIn 0) s₀ ∧
      s₀.owner 0 = some "u1" ∧ s₀.nextCall 1 = some newSecretCommit ∧
      s₀.step .plain (.go 1 .done) = some s₁ ∧ Reach (Sessions.step .plain) anyStep s₁ s₂ ∧
      s₂.resultOf 1 = some noContent ∧ s₂.Derived 0 1 ∧ s₂.active 1 := by
  constructor
  · obtain ⟨s₀, hs₀, howner, hcall, s₁, hs₁⟩ : ∃ s₀,
        Reach (Sessions.step .plain) anyStep (Pool.new Db.signedIn 0) s₀ ∧
        s₀.owner 0 = some "u1" ∧ s₀.nextCall 0 = some newSecretCommit ∧
        ∃ s₁, s₀.step .plain (.go 0 .done) = some s₁ ∧
          (s₁.world.users.lookup "u1").map (·.passwordHash) = some "another secret" ∧
          s₁.resultOf 0 = some (rejected 400 "unknown scope 'nope'") ∧ s₁.active 0 :=
      exists_reach [.start (newSecret (some ["nope"])), .go 0 .done] (by decide +kernel)
    exact ⟨s₀, s₁, hs₀, howner, hcall, hs₁⟩
  · obtain ⟨s₀, hs₀, howner, hcall, s₁, hs₁, hrun⟩ : ∃ s₀,
        Reach (Sessions.step .plain) anyStep (Pool.new Db.signedIn 0) s₀ ∧
        s₀.owner 0 = some "u1" ∧ s₀.nextCall 1 = some newSecretCommit ∧
        ∃ s₁, s₀.step .plain (.go 1 .done) = some s₁ ∧
          ∃ s₂ ∈ run (Sessions.step .plain) s₁ (.go 1 .done :: List.replicate 3 (.go 0 .done)),
            s₂.resultOf 1 = some noContent ∧ (0, 1) ∈ s₂.exchanges ∧ s₂.active 1 :=
      exists_reach [.start (.refresh (some 0)), .go 0 .done, .start (newSecret none), .go 1 .done]
        (by decide +kernel)
    obtain ⟨s₂, hs₂, hresult, hexchange, hactive⟩ := exists_reach _ hrun
    exact ⟨s₀, s₁, s₂, hs₀, howner, hcall, hs₁, hs₂, hresult, .single hexchange, hactive⟩

/-- A new password with a scope that there is: the request revokes the token, and a refresh afterwards
is turned down. -/
theorem update_ends_sessions_known_scope :
    ∃ s₀ s₁ s₂ s₃, Reach (Sessions.step .plain) (fun s a => s.revokes .plain a)
        (Pool.new Db.signedIn 0) s₀ ∧
      s₀.nextCall 0 = some newSecretCommit ∧ s₀.step .plain (.go 0 .done) = some s₁ ∧
      Reach (Sessions.step .plain) (fun s a => s.revokes .plain a) s₁ s₂ ∧
      (s₂.resultOf 0).isSome ∧
      Reach (Sessions.step .plain) (fun s a => s.revokes .plain a) s₂ s₃ ∧
      s₃.resultOf 1 = some (unauthorized "refresh token invalid or expired").clearingCookies ∧
      ∀ hash hash', s₀.owner hash = some "u1" → s₃.Derived hash hash' →
        s₃.active hash' = false := by
  obtain ⟨s₀, hs₀, hcall, hcommit, hok, s₁, hs₁, h⟩ : ∃ s₀, Reach (Sessions.step .plain)
      (fun s a => s.revokes .plain a) (Pool.new Db.signedIn 0) s₀ ∧
      s₀.nextCall 0 = some newSecretCommit ∧
      (s₀.world.update "u1" none none (some "another secret")).isSome ∧
      s₀.revokes .plain (.go 0 .done) ∧ ∃ s₁, s₀.step .plain (.go 0 .done) = some s₁ ∧
        ∃ s₂ ∈ run (guarded (Sessions.step .plain) fun s a => s.revokes .plain a) s₁
          [.go 0 .done, .go 0 .done], (s₂.resultOf 0).isSome ∧
            ∃ s₃ ∈ run (guarded (Sessions.step .plain) fun s a => s.revokes .plain a) s₂
              [.start (.refresh (some 0)), .go 1 .done], s₃.resultOf 1 =
                some (unauthorized "refresh token invalid or expired").clearingCookies :=
    exists_guarded [.start (newSecret (some ["nodes:read"])), .go 0 .done] (by decide +kernel)
  obtain ⟨s₂, hs₂, hret, h⟩ := exists_guarded _ h
  obtain ⟨s₃, hs₃, h⟩ := exists_guarded _ h
  exact ⟨s₀, s₁, s₂, s₃, hs₀, hcall, hs₁, hs₂, hret, hs₃, h,
    update_ends_sessions .plain Db.signedIn 0 s₀ s₁ s₂ s₃ 0 "u1" none none (some "another secret") hs₀
      hcall rfl hcommit hok hs₁ hs₂ hret hs₃⟩

/-- **Tokens stay with their user, and revoked ones stay revoked**, in every run: what is derived from
a token by exchanges is a token of the same user, and once revoked a token is never active again. -/
theorem tokens_keep_user {prim : Primitives} {db : Db} {clock hash : ℕ} {s₀ s : Sessions} {id : String}
    (h₀ : Reach (Sessions.step prim) anyStep (Pool.new db clock) s₀)
    (h : Reach (Sessions.step prim) anyStep s₀ s) (howner : s₀.owner hash = some id) :
    (∀ hash', s.Derived hash hash' → s.owner hash' = some id) ∧
      (s₀.revoked hash → s.active hash = false) := by
  have hlineage : Lineage s₀ := h₀.invariant Lineage (.new db clock)
    fun _ _ _ ih _ hs => ih.step (Pool.step_steps hs)
  obtain ⟨hl, ho, hr⟩ : Lineage s ∧ s.owner hash = some id ∧ (s₀.revoked hash → s.revoked hash) := by
    refine h.invariant (fun s => Lineage s ∧ s.owner hash = some id ∧
      (s₀.revoked hash → s.revoked hash)) ⟨hlineage, howner, fun hr => hr⟩ ?_
    rintro s a s' ⟨hl, ho, hr⟩ - hs
    have hs := Pool.step_steps hs
    exact ⟨hl.step hs, owner_step hs ho, fun h => revoked_step hs (hr h)⟩
  exact ⟨fun hash' hd => hl.owner_of_derived ho hd, fun h => not_active_of_revoked (hr h)⟩

/-- A token that is exchanged twice has two successors of the same user. -/
theorem tokens_keep_user_twice : ∃ s id,
    Reach (Sessions.step Primitives.plain) anyStep (Pool.new Db.signedIn 0) s ∧
      s.owner 1 = some id ∧ s.owner 2 = some id := by
  obtain ⟨s, hs, hx⟩ : ∃ s, Reach (Sessions.step Primitives.plain) anyStep (Pool.new Db.signedIn 0) s ∧
      (0, 1) ∈ s.exchanges ∧ (0, 2) ∈ s.exchanges := exists_reach refreshTwice (by decide +kernel)
  have howner : Sessions.owner (Pool.new Db.signedIn 0) 0 = some "u1" := rfl
  have key := (tokens_keep_user .start hs howner).1
  exact ⟨s, _, hs, key 1 (.single hx.1), key 2 (.single hx.2)⟩

end Nullnet.Auth
