import Nullnet.Lib.Dict
import Nullnet.Lib.Runs
import Nullnet.Server.Net
import Mathlib.Data.List.MinMax

/-! # Cached verdicts of the egress policy

Whether a container may talk to a destination is decided by the server. The client asks for the first
packet of a flow and keeps the answer for a minute (`PolicyVerdicts`). When the policy has changed the
server pushes a message, and the client drops all its answers.

The policies are numbered. An answer carries the number of the policy it was computed under, which the
code does not know, and so does a push. In `Policing` checks and pushes are in flight at once: a check is
asked, decided by the server and replied to in separate steps, and a push is handled at any time. -/

namespace Nullnet.Client

open Nullnet.Lib
open Nullnet.Server (Ipv4Addr)

def VERDICT_TTL : ℕ := 60

def MAX_VERDICTS : ℕ := 4096

/-- An answer of the server, and the number of the policy it was computed under. -/
structure Verdict where
  allowed : Bool
  policy : ℕ
  deriving DecidableEq

/-- The answers by container and destination, with the time at which they came. -/
abbrev PolicyVerdicts : Type := Dict (String × Ipv4Addr) (Verdict × ℕ)

namespace PolicyVerdicts

def get (m : PolicyVerdicts) (key : String × Ipv4Addr) (now : ℕ) : Option Verdict :=
  (m.lookup key).bind fun e => if now - e.2 < VERDICT_TTL then some e.1 else none

def oldest (m : PolicyVerdicts) : Option (String × Ipv4Addr) :=
  (m.entries.argmin fun e => e.2.2).map Sigma.fst

def makeRoom (m : PolicyVerdicts) (key : String × Ipv4Addr) : PolicyVerdicts :=
  if MAX_VERDICTS ≤ m.entries.length ∧ key ∉ m then m.oldest.elim m m.erase else m

def put (m : PolicyVerdicts) (key : String × Ipv4Addr) (verdict : Verdict) (now : ℕ) :
    PolicyVerdicts :=
  (m.makeRoom key).insert key (verdict, now)

def clear (_ : PolicyVerdicts) : PolicyVerdicts := ∅

section

variable {m : PolicyVerdicts} {key k : String × Ipv4Addr} {verdict v : Verdict} {now t : ℕ}

theorem lookup_of_get (h : m.get key now = some v) : ∃ t, m.lookup key = some (v, t) := by
  obtain ⟨⟨v', t⟩, hl, hv⟩ := Option.bind_eq_some_iff.mp h
  rw [Option.ite_none_right_eq_some] at hv
  obtain ⟨-, rfl⟩ := hv.imp_right Option.some.inj
  exact ⟨t, hl⟩

theorem lookup_makeRoom (h : (m.makeRoom key).lookup k = some (v, t)) :
    m.lookup k = some (v, t) := by
  unfold makeRoom at h
  split_ifs at h
  · rcases ho : m.oldest with - | o
    · rwa [ho] at h
    · rw [ho, Option.elim_some, Dict.lookup_erase] at h
      split_ifs at h
      exact h
  · exact h

theorem lookup_put (h : (m.put key verdict now).lookup k = some (v, t)) :
    v = verdict ∨ m.lookup k = some (v, t) := by
  rw [put, Dict.lookup_insert] at h
  split_ifs at h
  · exact .inl (Prod.mk.inj (Option.some.inj h)).1.symm
  · exact .inr (lookup_makeRoom h)

theorem get_put : (m.put key verdict now).get key now = some verdict := by
  have h0 : now - now < VERDICT_TTL := by rw [Nat.sub_self]; decide
  rw [get, put, Dict.lookup_insert, if_pos rfl, Option.bind_some, if_pos h0]

end

end PolicyVerdicts

/-! ## Checks and pushes -/

/-- A check that the cache could not answer: the server is asked, or its answer is on its way. -/
inductive Check
  | asked (container : String) (dstIp : Ipv4Addr)
  | answered (container : String) (dstIp : Ipv4Addr) (verdict : Verdict)
  deriving DecidableEq

structure Policing where
  /-- The number of the policy in force. -/
  policy : ℕ := 0
  /-- The pushes that were sent and have not cleared the answers yet. -/
  pushes : List ℕ := []
  /-- The newest policy of the pushes that have. -/
  cleared : ℕ := 0
  verdicts : PolicyVerdicts := ∅
  checks : List Check := []
  now : ℕ := 0

inductive PolicyAction
  /-- The policy changes. -/
  | change
  /-- The server sends `EgressPolicyChanged`. -/
  | push
  /-- The handler of a push clears the answers. -/
  | clear (i : ℕ)
  /-- The first packet of a flow: `policy_allows` looks into the cache, and asks the server. -/
  | check (container : String) (dstIp : Ipv4Addr)
  /-- The server computes its answer. -/
  | decide (i : ℕ)
  /-- The answer arrives. -/
  | reply (i : ℕ)
  /-- The server cannot be reached or takes too long; nothing is kept. -/
  | fail (i : ℕ)
  | pass (seconds : ℕ)
  /-- The hash map changes its order. -/
  | rehash (container : String) (dstIp : Ipv4Addr)

namespace Policing

/-- One step; `allows` is what the policies say. -/
def step (allows : ℕ → String → Ipv4Addr → Bool) (s : Policing) : PolicyAction → Option Policing
  | .change => some { s with policy := s.policy + 1 }
  | .push => some { s with pushes := s.pushes ++ [s.policy] }
  | .clear i => do
    let policy ← s.pushes[i]?
    some { s with
      pushes := s.pushes.eraseIdx i
      cleared := max s.cleared policy
      verdicts := s.verdicts.clear }
  | .check container dstIp =>
    match s.verdicts.get (container, dstIp) s.now with
    | some _ => some s
    | none => some { s with checks := s.checks ++ [.asked container dstIp] }
  | .decide i =>
    match s.checks[i]? with
    | some (.asked container dstIp) =>
      let verdict := ⟨allows s.policy container dstIp, s.policy⟩
      some { s with checks := s.checks.set i (.answered container dstIp verdict) }
    | _ => none
  | .reply i =>
    match s.checks[i]? with
    | some (.answered container dstIp verdict) =>
      some { s with
        checks := s.checks.eraseIdx i
        verdicts := s.verdicts.put (container, dstIp) verdict s.now }
    | _ => none
  | .fail i => if i < s.checks.length then some { s with checks := s.checks.eraseIdx i } else none
  | .pass seconds => some { s with now := s.now + seconds }
  | .rehash container dstIp => some { s with verdicts := s.verdicts.toFront (container, dstIp) }

/-- No answer is put that is older than a push that was handled by then. -/
def Fresh (s : Policing) : PolicyAction → Prop
  | .reply i =>
    match s.checks[i]? with
    | some (.answered _ _ verdict) => s.cleared ≤ verdict.policy
    | _ => True
  | _ => True

instance (s : Policing) (a : PolicyAction) : Decidable (s.Fresh a) := by
  unfold Fresh
  split
  · split <;> infer_instance
  · infer_instance

/-- What the cache returns was computed under the policy of the last push, or a later one. -/
def Current (s : Policing) : Prop :=
  ∀ key verdict, s.verdicts.get key s.now = some verdict → s.cleared ≤ verdict.policy

/-- All kept answers are current, those that are too old to be returned included. -/
def Inv (s : Policing) : Prop :=
  ∀ key verdict t, s.verdicts.lookup key = some (verdict, t) → s.cleared ≤ verdict.policy

theorem Inv.current {s : Policing} (h : s.Inv) : s.Current := by
  intro key verdict hget
  obtain ⟨t, hl⟩ := PolicyVerdicts.lookup_of_get hget
  exact h key verdict t hl

section

variable {allows : ℕ → String → Ipv4Addr → Bool} {s s' : Policing} {a : PolicyAction}

theorem Inv.same (h : s.Inv) (hc : s'.cleared = s.cleared) (hv : s'.verdicts = s.verdicts) :
    s'.Inv := by
  intro key verdict t hl
  rw [hc]
  exact h key verdict t (hv ▸ hl)

theorem Inv.step (h : s.Inv) (ha : s.Fresh a) (hs : s.step allows a = some s') : s'.Inv := by
  cases a with
  | change => cases hs; exact h.same rfl rfl
  | push => cases hs; exact h.same rfl rfl
  | clear i =>
    obtain ⟨policy, -, hs⟩ := Option.bind_eq_some_iff.mp hs
    cases hs
    intro key verdict t hl
    cases hl
  | check container dstIp =>
    simp only [Policing.step] at hs
    split at hs <;> cases hs <;> exact h.same rfl rfl
  | decide i =>
    simp only [Policing.step] at hs
    split at hs <;> cases hs
    exact h.same rfl rfl
  | reply i =>
    simp only [Policing.step] at hs
    split at hs <;> cases hs
    next container dstIp answer hi =>
      intro key verdict t hl
      rcases PolicyVerdicts.lookup_put hl with rfl | hl
      · simpa only [Fresh, hi] using ha
      · exact h key verdict t hl
  | fail i =>
    simp only [Policing.step, Option.ite_none_right_eq_some] at hs
    cases hs.2
    exact h.same rfl rfl
  | pass seconds => cases hs; exact h.same rfl rfl
  | rehash container dstIp =>
    cases hs
    intro key verdict t hl
    exact h key verdict t (by rwa [Dict.lookup_toFront] at hl)

theorem put_stale (hs : s.step allows a = some s') (ha : ¬ s.Fresh a) : ¬ s'.Current := by
  cases a with
  | reply i =>
    simp only [Policing.step] at hs
    split at hs <;> cases hs
    next container dstIp verdict hi =>
      simp only [Fresh, hi] at ha
      exact fun hcur => ha (hcur (container, dstIp) verdict PolicyVerdicts.get_put)
  | _ => exact absurd trivial ha

end

/-- **After a push is handled no older answer is returned**, in every run that puts no answer older
than a push handled by then; a step that does put one breaks this. -/
theorem verdicts_after_clear (allows : ℕ → String → Ipv4Addr → Bool) :
    (∀ s, Reach (step allows) Fresh {} s → s.Current) ∧
      ∀ (s : Policing) (a : PolicyAction) (s' : Policing),
        s.step allows a = some s' → ¬ s.Fresh a → ¬ s'.Current := by
  refine ⟨fun s hs => ?_, fun s a s' => put_stale⟩
  have hinit : Inv {} := fun key verdict t hl => by rw [AList.lookup_empty] at hl; cases hl
  exact (hs.invariant Inv hinit fun s a s' h ha hs => h.step ha hs).current

/-- A container is allowed a destination by the first policy only. The answer of that policy arrives
after the push of the second one was handled, and is returned for a minute. -/
theorem verdict_outlives_push :
    ∃ s, Reach (step fun policy _ _ => policy = 0) anyStep {} s ∧ s.cleared = 1 ∧
      s.verdicts.get ("web", 0x5DB8D822#32) s.now = some ⟨true, 0⟩ :=
  exists_reach [.check "web" 0x5DB8D822#32, .decide 0, .change, .push, .clear 0, .reply 0, .pass 59]
    (by decide +kernel)

/-- The answer is computed after the push was handled: it is the one of the second policy. -/
theorem verdicts_after_clear_decided_late :
    ∃ s : Policing, s.Current ∧ s.cleared = 1 ∧
      s.verdicts.get ("web", 0x5DB8D822#32) s.now = some ⟨false, 1⟩ := by
  obtain ⟨s, hs, h⟩ : ∃ s, Reach (step fun policy _ _ => policy = 0) Fresh {} s ∧ s.cleared = 1 ∧
      s.verdicts.get ("web", 0x5DB8D822#32) s.now = some ⟨false, 1⟩ :=
    exists_guarded [.check "web" 0x5DB8D822#32, .change, .push, .clear 0, .decide 0, .reply 0, .pass 59]
      (by decide +kernel)
  exact ⟨s, (verdicts_after_clear _).1 s hs, h⟩

end Policing

end Nullnet.Client
