import Nullnet.Auth.Tokens

/-! # Refresh tokens are used once

`rotate` revokes a token and inserts its successor, whatever has happened to the token since the
request found it. So two requests that find one token active both get a successor for it. In a run in
which every `rotate` meets a token that is not revoked (`Sessions.rotatesUnrevoked`), a token has one
successor at most; and in every run, a token that is revoked before a request starts gets none through
this request (`refresh_single_use`). -/

namespace Nullnet.Auth

open Nullnet.Lib

/-! ## Exchanges -/

namespace Sessions

/-- The exchanges so far, the last one first. -/
def exchanges (s : Sessions) : List (ℕ × ℕ) := s.log.filterMap fun e => exchanged e.call e.reply

def successors (s : Sessions) (hash : ℕ) : List ℕ :=
  (s.exchanges.filter fun e => e.1 = hash).map Prod.snd

def revoked (s : Sessions) (hash : ℕ) : Bool := (s.world.tokens.lookup hash).any (·.revokedAt.isSome)

/-- The condition on a step: a token that is exchanged has not been revoked. -/
def rotatesUnrevoked (s : Sessions) : AuthAction → Bool
  | .go j .done =>
    match s.nextCall j with
    | some (.rotate oldHash _) => (s.world.tokens.lookup oldHash).any (·.revokedAt.isNone)
    | _ => true
  | _ => true

end Sessions

section

variable {prim : Primitives} {s s' : Sessions} {a : AuthAction} {j : ℕ} {q : Request} {c : Call}
  {k : Reply c → Handler Response} {i : Outcome} {oldHash hash : ℕ}

theorem exchanges_perform : Sessions.exchanges (s.perform (service prim) j q c k i) =
    (exchanged c (exec prim s.world s.clock c i).2).toList ++ s.exchanges := by
  rcases hx : exchanged c (exec prim s.world s.clock c i).2 with - | e
  · exact List.filterMap_cons_none hx
  · exact List.filterMap_cons_some hx

/-- The rows of tokens stay, with their users, and what is revoked stays revoked. -/
theorem steps_keeps (hs : Pool.Steps (service prim) s a s') : s.world.Keeps s'.world := by
  cases hs with
  | go j i q c k hj => exact (exec_tokenStep prim s.world s.clock c i).keeps
  | start | drop | tick => exact .refl _

theorem revoked_step (hs : Pool.Steps (service prim) s a s') (h : s.revoked hash) :
    s'.revoked hash := by
  obtain ⟨row, hrow, hrev⟩ := (Option.any_eq_true _ _).mp h
  obtain ⟨row', hrow', -, hrev'⟩ := steps_keeps hs hash row hrow
  exact (Option.any_eq_true _ _).mpr ⟨row', hrow', hrev' hrev⟩

theorem row_of_rotatesUnrevoked (hok : s.rotatesUnrevoked (.go j i))
    (hj : s.jobs.lookup j = some ⟨q, .call c k⟩)
    (hx : exchanged c (exec prim s.world s.clock c i).2 = some (oldHash, hash)) :
    ∃ row, s.world.tokens.lookup oldHash = some row ∧ row.revokedAt = none := by
  obtain ⟨userId, rfl, -⟩ := (exec_tokenStep prim s.world s.clock c i).of_exchanged hx
  have hnext : s.nextCall j = some (.rotate oldHash userId) := by
    rw [Pool.nextCall, hj]
    rfl
  rcases i with - | - | n
  · dsimp only [Sessions.rotatesUnrevoked] at hok
    rw [hnext] at hok
    obtain ⟨row, hrow, hrev⟩ := (Option.any_eq_true _ _).mp hok
    exact ⟨row, hrow, Option.isNone_iff_eq_none.mp hrev⟩
  · cases hx
  · cases hx

end

/-! ## One successor -/

/-- The invariant: a token that has been exchanged is revoked, and has one successor. -/
structure SingleUse (s : Sessions) : Prop where
  revoked : ∀ e ∈ s.exchanges, s.revoked e.1
  once : ∀ hash, (s.successors hash).length ≤ 1

namespace SingleUse

variable {prim : Primitives} {s s' : Sessions} {a : AuthAction}

theorem new (db : Db) (clock : ℕ) : SingleUse (Pool.new db clock) := by
  refine ⟨?_, fun hash => Nat.zero_le 1⟩
  rintro e ⟨⟩

theorem step (h : SingleUse s) (hok : s.rotatesUnrevoked a)
    (hs : Pool.Steps (service prim) s a s') : SingleUse s' := by
  have hrev : ∀ hash, s.revoked hash → s'.revoked hash := fun _ => revoked_step hs
  cases hs with
  | start | drop | tick => exact ⟨h.revoked, h.once⟩
  | go j i q c k hj =>
    rcases hx : exchanged c (exec prim s.world s.clock c i).2 with - | ⟨oldHash, hash⟩
    · have hsame : Sessions.exchanges (s.perform (service prim) j q c k i) = s.exchanges := by
        rw [exchanges_perform, hx]
        rfl
      refine ⟨fun e he => hrev e.1 (h.revoked e (hsame ▸ he)), fun hash => ?_⟩
      unfold Sessions.successors
      rw [hsame]
      exact h.once hash
    · have hnew : Sessions.exchanges (s.perform (service prim) j q c k i) =
          (oldHash, hash) :: s.exchanges := by
        rw [exchanges_perform, hx]
        rfl
      obtain ⟨row, hrow, hnone⟩ := row_of_rotatesUnrevoked hok hj hx
      -- the token was not revoked, so it has not been exchanged before
      have hunused : ∀ e ∈ s.exchanges, e.1 ≠ oldHash := by
        rintro e he rfl
        have := h.revoked e he
        rw [Sessions.revoked, hrow, Option.any_some, hnone] at this
        cases this
      obtain ⟨-, -, -, -, hold⟩ := (exec_tokenStep prim s.world s.clock c i).of_exchanged hx
      refine ⟨fun e he => ?_, fun hash' => ?_⟩
      · rw [hnew] at he
        rcases List.mem_cons.mp he with rfl | he
        · obtain ⟨row', hrow', hrev'⟩ := hold row hrow
          exact (Option.any_eq_true _ _).mpr ⟨row', hrow', hrev'⟩
        · exact hrev e.1 (h.revoked e he)
      · unfold Sessions.successors
        rw [hnew, List.filter_cons]
        split_ifs with heq
        · have hnil : s.exchanges.filter (fun e => e.1 = hash') = [] := by
            refine List.filter_eq_nil_iff.mpr fun e he => ?_
            rw [← of_decide_eq_true heq]
            simpa using hunused e he
          rw [hnil]
          exact Nat.le_refl 1
        · exact h.once hash'

end SingleUse

/-! ## Tokens that are revoked before -/

/-- Of the requests from number `n` on, none has found the token, and none has exchanged it. -/
structure Shunned (hash n : ℕ) (s : Sessions) : Prop where
  tracks : s.Tracks foundToken
  revoked : s.revoked hash
  count : n ≤ s.nextJob
  found : ∀ j, n ≤ j → ∀ row, foundToken.after none j s.log ≠ some (hash, row)
  kept : ∀ e ∈ s.log, n ≤ e.job → ∀ hash', exchanged e.call e.reply ≠ some (hash, hash')

variable {prim : Primitives} {now hash : ℕ} {row : RefreshToken} {s : Sessions}

theorem found_exec {db : Db} {c : Call} {i : Outcome} {l : Option (ℕ × RefreshToken)}
    (h : foundToken.next l c (exec prim db now c i).2 = some (hash, row)) :
    l = some (hash, row) ∨ db.findActive now hash = some row := by
  cases c with
  | findActive hash' =>
    rcases i with - | n
    · rcases hf : db.findActive now hash' with - | row' <;> simp only [exec, Db.read, hf] at h
      · exact .inl h
      · cases h
        exact .inr hf
    · exact .inl h
  | _ => exact .inl h

theorem not_findActive_of_revoked
    (h : s.revoked hash) : s.world.findActive now hash ≠ some row := by
  intro hf
  obtain ⟨hrow, hactive⟩ := Option.filter_eq_some_iff.mp hf
  rw [Sessions.revoked, hrow, Option.any_some] at h
  rw [RefreshToken.isActive, Option.isNone_eq_false_iff.mpr h] at hactive
  cases hactive

theorem tracks_step {s' : Sessions} {a : AuthAction} (h : s.Tracks foundToken)
    (hs : Pool.Steps (service prim) s a s') : s'.Tracks foundToken := by
  refine h.step ?_ hs
  cases a with
  | start q => exact obeys_foundToken prim q
  | go j i => exact fun _ _ _ _ => trivial
  | _ => trivial

namespace Shunned

variable {prim : Primitives} {s s' : Sessions} {a : AuthAction} {hash n : ℕ}

theorem start (htracks : s.Tracks foundToken) (hrev : s.revoked hash) : Shunned hash s.nextJob s := by
  have hnew : ∀ e ∈ s.log, e.job < s.nextJob := htracks.past
  refine ⟨htracks, hrev, le_rfl, fun j hj row hfound => ?_, fun e he hn => ?_⟩
  · rw [foundToken.after_eq_of_forall fun e he => Nat.ne_of_lt (Nat.lt_of_lt_of_le (hnew e he) hj)] at hfound
    cases hfound
  · exact absurd (hnew e he) (Nat.not_lt.mpr hn)

theorem step (h : Shunned hash n s) (hs : Pool.Steps (service prim) s a s') :
    Shunned hash n s' := by
  have htracks := tracks_step h.tracks hs
  have hrev := revoked_step hs h.revoked
  cases hs with
  | start q => exact ⟨htracks, hrev, Nat.le_succ_of_le h.count, h.found, h.kept⟩
  | drop | tick => exact ⟨htracks, hrev, h.count, h.found, h.kept⟩
  | go j i q c k hj =>
    have hallows := h.tracks.allows hj
    refine ⟨htracks, hrev, h.count, fun j' hn row hfound => ?_, fun e he hn hash' hx => ?_⟩
    · change (if j = j' then _ else _) = some (hash, row) at hfound
      split_ifs at hfound with heq
      · -- a token that is revoked is not found
        obtain hfound | hfound := found_exec hfound
        · exact h.found j' hn row hfound
        · exact not_findActive_of_revoked h.revoked hfound
      · exact h.found j' hn row hfound
    · rcases List.mem_cons.mp he with rfl | he
      · obtain ⟨userId, rfl, -⟩ := (exec_tokenStep prim s.world s.clock c i).of_exchanged hx
        obtain ⟨row, hfound, -⟩ := hallows
        exact h.found j hn row hfound
      · exact h.kept e he hn hash' hx

end Shunned

/-! ## Refresh tokens are used once -/

/-- **Refresh tokens are used once.** In every run in which no token is exchanged that has been revoked
since it was found, a token has at most one successor. And in every run, a token that is revoked is not
exchanged by a request that starts afterwards. -/
theorem refresh_single_use (prim : Primitives) (db : Db) (clock : ℕ) :
    (∀ s, Reach (Sessions.step prim) (fun s a => s.rotatesUnrevoked a) (Pool.new db clock) s →
      ∀ hash, (s.successors hash).length ≤ 1) ∧
    ∀ s₀ s hash, Reach (Sessions.step prim) anyStep (Pool.new db clock) s₀ → s₀.revoked hash →
      Reach (Sessions.step prim) anyStep s₀ s →
      ∀ e ∈ s.log, s₀.nextJob ≤ e.job → ∀ hash', exchanged e.call e.reply ≠ some (hash, hash') := by
  refine ⟨fun s hr hash => ?_, fun s₀ s hash hr₀ hrev hr => ?_⟩
  · have hinv : SingleUse s := hr.invariant SingleUse (.new db clock)
      fun s a s' h hok hs => h.step hok (Pool.step_steps hs)
    exact hinv.once hash
  · have htracks := hr₀.invariant (Pool.Tracks foundToken) (Pool.tracks_new db clock)
      fun s a s' h _ hs => tracks_step h (Pool.step_steps hs)
    have hinv : Shunned hash s₀.nextJob s := hr.invariant (Shunned hash s₀.nextJob)
      (.start htracks hrev) fun s a s' h _ hs => h.step (Pool.step_steps hs)
    exact hinv.kept

/-- Two requests find the same token, and then both exchange it. -/
def refreshTwice : List AuthAction :=
  [.start (.refresh (some 0)), .start (.refresh (some 0)), .go 0 .done, .go 1 .done] ++
    List.replicate 3 (.go 0 .done) ++ List.replicate 3 (.go 1 .done)

/-- The token that both have found has two successors. -/
theorem token_exchanged_twice :
    ∃ s, Reach (Sessions.step Primitives.plain) anyStep (Pool.new Db.signedIn 0) s ∧
      s.successors 0 = [2, 1] :=
  exists_reach refreshTwice (by decide +kernel)

def refreshOnce : List AuthAction := .start (.refresh (some 0)) :: List.replicate 4 (.go 0 .done)

/-- A token is exchanged once; a second request does not find it. -/
theorem refresh_single_use_again :
    (∃ s, Reach (Sessions.step Primitives.plain) (fun s a => s.rotatesUnrevoked a)
        (Pool.new Db.signedIn 0) s ∧ s.successors 0 = [1] ∧ (s.successors 0).length ≤ 1) ∧
    ∃ s₀ s, Reach (Sessions.step Primitives.plain) anyStep (Pool.new Db.signedIn 0) s₀ ∧
      s₀.revoked 0 ∧ Reach (Sessions.step Primitives.plain) anyStep s₀ s ∧
      s.resultOf 1 = some (unauthorized "refresh token invalid or expired").clearingCookies ∧
      ∀ e ∈ s.log, s₀.nextJob ≤ e.job → ∀ hash', exchanged e.call e.reply ≠ some (0, hash') := by
  constructor
  · exact (exists_guarded refreshOnce (by decide +kernel)).imp fun s h =>
      ⟨h.1, h.2, (refresh_single_use _ _ _).1 s h.1 0⟩
  · obtain ⟨s₀, hs₀, hrev, hrun⟩ : ∃ s₀,
        Reach (Sessions.step .plain) anyStep (Pool.new Db.signedIn 0) s₀ ∧ s₀.revoked 0 ∧
        ∃ s ∈ run (Sessions.step .plain) s₀ [.start (.refresh (some 0)), .go 1 .done],
          s.resultOf 1 = some (unauthorized "refresh token invalid or expired").clearingCookies :=
      exists_reach refreshOnce (by decide +kernel)
    obtain ⟨s, hs, hresult⟩ := exists_reach _ hrun
    exact ⟨s₀, s, hs₀, hrev, hs, hresult, (refresh_single_use _ _ _).2 s₀ s 0 hs₀ hrev hs⟩

end Nullnet.Auth
