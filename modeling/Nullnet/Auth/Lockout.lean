import Nullnet.Auth.Attempts

/-! # Wrong codes and the lockout

Both steps of a sign-in share one counter of failures for each name: `is_locked` is asked first,
`record_failure` counts, and `clear` forgets. But the right password alone clears the counter, so who
knows it can clear the counter at will; and the check, the evaluation of the code and the record are
calls of their own, so many requests can pass the check before the first failure is recorded.

Under `Sessions.countsCodes`, which leaves out these two, from the sixth wrong code of a user since their
last session on, each one comes a lockout after all before it (`mfa_lockout`). The invariant is a
`Tally`: the counter has all wrong codes that are not still to be recorded, and with enough of them the
account is locked for long enough. -/

namespace Nullnet.Auth

open Nullnet.Lib

/-! ## Counting codes -/

/-- Once there are as many as are allowed, each one comes a lockout after all before it. -/
def Spaced : List ℕ → Prop
  | [] => True
  | x :: w => (MAX_FAILED_ATTEMPTS ≤ w.length → ∀ y ∈ w, y + LOCKOUT_SECS ≤ x) ∧ Spaced w

def Db.lockedUntil (db : Db) (username : String) : Option ℕ :=
  (db.attempts.lookup username).bind (·.lockedUntil)

/-- The counter of a name has the wrong codes `w`, apart from `n` that are still to be recorded. -/
structure Tally (db : Db) (username : String) (w : List ℕ) (n : ℕ) : Prop where
  le : w.length ≤ db.failedCount username + n
  locked : n = 0 → MAX_FAILED_ATTEMPTS ≤ w.length →
    ∃ t, db.lockedUntil username = some t ∧ ∀ x ∈ w, x + LOCKOUT_SECS ≤ t

theorem Db.lookup_recordFailure (db : Db) (now : ℕ) (username username' : String) :
    (db.recordFailure now username).attempts.lookup username' =
      if username' = username then some ⟨db.failedCount username + 1,
        if MAX_FAILED_ATTEMPTS ≤ db.failedCount username + 1 then some (now + LOCKOUT_SECS) else none⟩
      else db.attempts.lookup username' :=
  Dict.lookup_insert ..

namespace Tally

variable {db db' : Db} {username : String} {w : List ℕ} {n now : ℕ}

theorem nil : Tally db username [] n :=
  ⟨Nat.zero_le _, fun _ h => absurd h (by decide)⟩

theorem congr (h : Tally db username w n)
    (ha : db'.attempts.lookup username = db.attempts.lookup username) : Tally db' username w n := by
  refine ⟨?_, ?_⟩
  · rw [Db.failedCount, ha]
    exact h.le
  · rw [Db.lockedUntil, ha]
    exact h.locked

theorem evaluate (h : Tally db username w n) : Tally db username (now :: w) (n + 1) := by
  refine ⟨?_, fun hn => absurd hn (Nat.succ_ne_zero n)⟩
  have := h.le
  rw [List.length_cons]
  omega

theorem record {n' : ℕ} (h : Tally db username w n) (hn : n ≤ n' + 1) (hpast : ∀ x ∈ w, x ≤ now) :
    Tally (db.recordFailure now username) username w n' := by
  have hrow := db.lookup_recordFailure now username username
  rw [if_pos rfl] at hrow
  refine ⟨?_, fun h0 hmax => ?_⟩
  · rw [Db.failedCount, hrow, Option.map_some, Option.getD_some]
    have := h.le
    dsimp only
    omega
  · have hcount : MAX_FAILED_ATTEMPTS ≤ db.failedCount username + 1 := by
      have := h.le
      omega
    refine ⟨now + LOCKOUT_SECS, ?_, fun x hx => Nat.add_le_add_right (hpast x hx) _⟩
    rw [Db.lockedUntil, hrow, Option.bind_some, if_pos hcount]

/-- A wrong code that is evaluated while the account is not locked comes late enough. -/
theorem spaced (h : Tally db username w n) (hlocked : db.isLocked now username = false)
    (hn : n = 0 ∨ db.failedCount username + n < MAX_FAILED_ATTEMPTS)
    (hmax : MAX_FAILED_ATTEMPTS ≤ w.length) : ∀ y ∈ w, y + LOCKOUT_SECS ≤ now := by
  rcases hn with hn | hn
  · obtain ⟨t, ht, hw⟩ := h.locked hn hmax
    have hle : t ≤ now := by
      change (db.lockedUntil username).any _ = false at hlocked
      rw [ht, Option.any_some, decide_eq_false_iff_not, Nat.not_lt] at hlocked
      exact hlocked
    exact fun y hy => Nat.le_trans (hw y hy) hle
  · exact absurd (Nat.le_trans hmax h.le) (Nat.not_le.mpr hn)

end Tally

/-! ## The condition -/

def Attempt.user : Attempt → Option (String × User)
  | .idle => none
  | .found id user | .wrong id user | .right id user | .issuing id user => some (id, user)

def Attempt.isWrong (id : String) : Attempt → Bool
  | .wrong id' _ => id' = id
  | _ => false

def Attempt.isIssuing (id : String) : Attempt → Bool
  | .issuing id' _ => id' = id
  | _ => false

namespace Sessions

/-- How many wrong codes of a user are still to be recorded. -/
def unrecorded (s : Sessions) (id : String) : ℕ := s.countIn attempt (·.isWrong id)

/-- For how many requests the counter has been cleared, and a session of the user is to be issued. -/
def issuing (s : Sessions) (id : String) : ℕ := s.countIn attempt (·.isIssuing id)

/-- The condition on a call: a wrong code is evaluated only while the account is not locked, no session
is being issued, and what is still to be recorded does not fill the counter; a right password clears the
counter only if no code has been wrong; and wrong codes are recorded, and sessions issued. -/
def countsCall (prim : Primitives) (s : Sessions) (i : Outcome) : Attempt → Call → Bool
  | .found id user, .verifyCode _ secret code =>
    prim.codeValid secret code s.clock ||
      (!s.world.isLocked s.clock user.username && s.issuing id = 0 &&
        (s.unrecorded id = 0 ||
          s.world.failedCount user.username + s.unrecorded id < MAX_FAILED_ATTEMPTS))
  | .found id user, .clear _ =>
    !(i = .done && user.mfaConfirmedAt.isSome) || (wrongTimes id s.log).isEmpty
  | .wrong .., .recordFailure _ => i = .done
  | .issuing .., .issueAccessToken .. => i = .done
  | .issuing .., .insert id => i = .done && (s.world.insertToken s.clock id).isSome
  | _, _ => true

/-- The condition on a step: the requests are sign-ins, the calls meet the condition, and no request is
dropped while it has something to record or a session to issue. -/
def countsCodes (prim : Primitives) (s : Sessions) : AuthAction → Bool
  | .start q =>
    match q with
    | .login .. | .mfaVerify .. => true
    | _ => false
  | .go j i => (s.jobs.lookup j).all fun job => job.prog.next.all fun c =>
      s.countsCall prim i (s.stateOf attempt j job.request) c
  | .drop j => (s.jobs.lookup j).all fun job =>
      match s.stateOf attempt j job.request with
      | .wrong .. | .issuing .. => false
      | _ => true
  | .tick _ => true

end Sessions

variable {prim : Primitives} {s : Sessions}

theorem countsCall_expects {i : Outcome} {l : Attempt} {c : Call}
    (hok : s.countsCall prim i l c) : attempt.expects l c (exec prim s.world s.clock c i).2 := by
  cases l with
  | idle =>
    cases c with
    | byUsername username =>
      rcases hf : s.world.byUsername username with - | ⟨id, user⟩ <;> cases i <;>
        simp only [exec, Db.read, hf] <;> try trivial
      exact (Db.byUsername_spec hf).2
    | _ => trivial
  | found | right => cases c <;> trivial
  | wrong =>
    cases c with
    | recordFailure username =>
      obtain rfl := of_decide_eq_true hok
      exact rfl
    | _ => trivial
  | issuing =>
    cases c with
    | issueAccessToken =>
      obtain rfl := of_decide_eq_true hok
      exact rfl
    | insert id =>
      obtain ⟨hi, hins⟩ := Bool.and_eq_true_iff.mp hok
      obtain rfl := of_decide_eq_true hi
      obtain ⟨⟨hash, db'⟩, hins⟩ := Option.isSome_iff_exists.mp hins
      simp only [exec, hins]
      exact rfl
    | _ => trivial

theorem fits_attempt {a : AuthAction} (hok : s.countsCodes prim a) :
    s.Fits attempt (service prim) a := by
  cases a with
  | start q =>
    cases q with
    | login username password => exact keeps_loginHandler username password
    | mfaVerify mfaToken code => exact keeps_mfaVerifyHandler mfaToken code
    | _ => cases hok
  | drop | tick => trivial
  | go j i =>
    intro q c k hj
    rw [Sessions.countsCodes, hj] at hok
    exact countsCall_expects hok

/-! ## The invariant -/

/-- The invariant: requests have found the rows that the users have, the wrong codes are in the past,
and for each user either a session is being issued, or the counter has the wrong codes. -/
structure Watched (s : Sessions) : Prop where
  tracks : s.Tracks attempt
  found : ∀ j job id user, s.jobs.lookup j = some job →
    (s.stateOf attempt j job.request).user = some (id, user) → s.world.users.lookup id = some user
  past : ∀ id, ∀ x ∈ wrongTimes id s.log, x ≤ s.clock
  tally : ∀ id user, s.world.users.lookup id = some user → 0 < s.issuing id ∨
    Tally s.world user.username (wrongTimes id s.log) (s.unrecorded id)
  spaced : ∀ id, Spaced (wrongTimes id s.log)

theorem watched_new (db : Db) (clock : ℕ) : Watched (Pool.new db clock) := by
  refine ⟨Pool.tracks_new db clock, ?_, ?_, fun id user _ => .inr .nil, fun id => trivial⟩
  · rintro j job id user ⟨⟩
  · rintro id x ⟨⟩

def Call.clears : (c : Call) → Reply c → Bool
  | .clear _, some () => true
  | _, _ => false

namespace SignInStep

variable {db db' : Db} {now : ℕ} {l l' : Attempt} {c : Call} {r : Reply c} {id : String}
  {w : List ℕ}

theorem users (h : SignInStep db now l c r l' db') : db'.users = db.users := by
  cases h with
  | clear id user hl hdb => rcases hdb with rfl | rfl <;> rfl
  | forget id user hmfa hdb => rcases hdb with ⟨rfl, -⟩ | ⟨rfl, -⟩ <;> rfl
  | session id user hash ha hu => exact hu
  | quiet | evaluate | record | recordOther => rfl

theorem user (h : SignInStep db now l c r l' db') {user : User} (hu : l'.user = some (id, user)) :
    l.user = some (id, user) ∨ db.users.lookup id = some user := by
  cases h with
  | quiet hw hl =>
    rcases hl with rfl | ⟨id', user', rfl, rfl⟩ | ⟨rfl, id', user', rfl, hrow⟩
    · exact .inl hu
    · exact .inl hu
    · cases hu
      exact .inr hrow
  | evaluate => exact .inl hu
  | recordOther => exact .inl hu
  | clear id' user' hl => rcases hl with rfl | ⟨rfl, -⟩ <;> exact .inl hu
  | record | forget | session => cases hu

theorem past (h : SignInStep db now l c r l' db')
    (hw : ∀ x ∈ w, x ≤ now) : ∀ x ∈ countWrong id now c r w, x ≤ now := by
  cases h with
  | quiet hq => rwa [hq]
  | evaluate id' =>
    rw [countWrong_wrong]
    split_ifs
    · intro x hx
      rcases List.mem_cons.mp hx with rfl | hx
      · exact Nat.le_refl x
      · exact hw x hx
    · exact hw
  | session id' =>
    rw [countWrong_session]
    split_ifs
    · nofun
    · exact hw
  | record | recordOther | clear | forget => exact hw

theorem spaced (h : SignInStep db now l c r l' db') (hw : Spaced w)
    (hlate : ∀ user, l = .found id user → l' = .wrong id user → MAX_FAILED_ATTEMPTS ≤ w.length →
      ∀ y ∈ w, y + LOCKOUT_SECS ≤ now) : Spaced (countWrong id now c r w) := by
  cases h with
  | quiet hq => rwa [hq]
  | evaluate id' user =>
    rw [countWrong_wrong]
    split_ifs with heq
    · subst heq
      exact ⟨hlate user rfl rfl, hw⟩
    · exact hw
  | session id' =>
    rw [countWrong_session]
    split_ifs
    · trivial
    · exact hw
  | record | recordOther | clear | forget => exact hw

/-- The counter has the wrong codes after a call, or a session is being issued. -/
theorem tally (h : SignInStep db now l c r l' db') {user : User}
    {n n' m m' : ℕ} (hrow : db.users.lookup id = some user)
    (hl : ∀ id' user', l.user = some (id', user') → db.users.lookup id' = some user')
    (hn : n' + (if l.isWrong id then 1 else 0) = n + if l'.isWrong id then 1 else 0)
    (hm : m' + (if l.isIssuing id then 1 else 0) = m + if l'.isIssuing id then 1 else 0)
    (hpast : ∀ x ∈ w, x ≤ now)
    (hforget : ∀ user', l = .found id user' → l' = .idle → c.clears r → w = [])
    (ht : 0 < m ∨ Tally db user.username w n) :
    0 < m' ∨ Tally db' user.username (countWrong id now c r w) n' := by
  -- the counters of other users stay as they are
  have hother : ∀ id' user', l.user = some (id', user') → id' ≠ id →
      user.username ≠ user'.username := by
    intro id' user' hu hne he
    exact hne (db.unique _ _ _ _ (hl id' user' hu) hrow he.symm)
  cases h with
  | quiet hq hll =>
    rw [hq]
    have hsame : l'.isWrong id = l.isWrong id ∧ l'.isIssuing id = l.isIssuing id := by
      rcases hll with rfl | ⟨id', user', rfl, rfl⟩ | ⟨rfl, id', user', rfl, -⟩ <;> exact ⟨rfl, rfl⟩
    rw [hsame.1] at hn
    rw [hsame.2] at hm
    obtain rfl : n' = n := Nat.add_right_cancel hn
    obtain rfl : m' = m := Nat.add_right_cancel hm
    exact ht
  | evaluate id' user' =>
    obtain rfl : m' = m := hm
    rw [countWrong_wrong]
    by_cases heq : id' = id
    · obtain rfl : n' = n + 1 := by simpa [Attempt.isWrong, heq] using hn
      rw [if_pos heq]
      exact ht.imp_right Tally.evaluate
    · obtain rfl : n' = n := by simpa [Attempt.isWrong, heq] using hn
      rw [if_neg heq]
      exact ht
  | record id' user' =>
    obtain rfl : m' = m := hm
    by_cases heq : id' = id
    · obtain rfl : n' + 1 = n := by simpa [Attempt.isWrong, heq] using hn
      obtain rfl : user' = user := by
        have := hl id' user' rfl
        rw [heq, hrow] at this
        exact (Option.some.inj this).symm
      exact ht.imp_right fun h => h.record le_rfl hpast
    · obtain rfl : n' = n := by simpa [Attempt.isWrong, heq] using hn
      refine ht.imp_right fun h => h.congr ?_
      rw [Db.lookup_recordFailure, if_neg (hother id' user' rfl heq)]
  | recordOther _ username =>
    obtain rfl : n' = n := Nat.add_right_cancel hn
    obtain rfl : m' = m := Nat.add_right_cancel hm
    by_cases heq : user.username = username
    · subst heq
      exact ht.imp_right fun h => h.record (Nat.le_succ _) hpast
    · refine ht.imp_right fun h => h.congr ?_
      rw [Db.lookup_recordFailure, if_neg heq]
  | clear id' user' hll hdb =>
    have hu : l.user = some (id', user') := by rcases hll with rfl | ⟨rfl, -⟩ <;> rfl
    have hw : l.isWrong id = false := by rcases hll with rfl | ⟨rfl, -⟩ <;> rfl
    have hi : l.isIssuing id = false := by rcases hll with rfl | ⟨rfl, -⟩ <;> rfl
    rw [hw] at hn
    rw [hi] at hm
    by_cases heq : id' = id
    · have : m' = m + 1 := by simpa [Attempt.isIssuing, heq] using hm
      exact .inl (by omega)
    · obtain rfl : n' = n := hn
      obtain rfl : m' = m := by simpa [Attempt.isIssuing, heq] using hm
      refine ht.imp_right fun h => h.congr ?_
      rcases hdb with rfl | rfl
      · exact AList.lookup_erase_ne (hother id' user' hu heq)
      · rfl
  | forget id' user' hmfa hdb =>
    obtain rfl : n' = n := hn
    obtain rfl : m' = m := hm
    rcases hdb with ⟨rfl, rfl⟩ | ⟨rfl, rfl⟩
    · by_cases heq : id' = id
      · subst heq
        obtain rfl := hforget user' rfl rfl rfl
        exact .inr .nil
      · exact ht.imp_right fun h => h.congr (AList.lookup_erase_ne (hother id' user' rfl heq))
    · exact ht
  | session id' user' hash ha hu =>
    obtain rfl : n' = n := hn
    rw [countWrong_session]
    by_cases heq : id' = id
    · rw [if_pos heq]
      exact .inr .nil
    · obtain rfl : m' = m := by simpa [Attempt.isIssuing, heq] using hm
      rw [if_neg heq]
      exact ht.imp_right fun h => h.congr (by rw [ha])

end SignInStep

namespace Watched

variable {prim : Primitives} {s s' : Sessions} {a : AuthAction} {i : Outcome} {c : Call} {id : String}
  {user : User}

theorem forgets_nothing (hcall : s.countsCall prim i (.found id user) c)
    (hidle : attempt.next (.found id user) c (exec prim s.world s.clock c i).2 = .idle)
    (hc : c.clears (exec prim s.world s.clock c i).2) : wrongTimes id s.log = [] := by
  cases c with
  | clear username =>
    by_cases hmfa : user.mfaConfirmedAt.isSome
    · cases i with
      | done => simpa [Sessions.countsCall, hmfa] using hcall
      | failed => cases hc
    · have hnext : ∀ r, attempt.next (.found id user) (.clear username) r = .issuing id user :=
        fun r => if_neg hmfa
      rw [hnext] at hidle
      cases hidle
  | _ => cases hc

theorem late (h : Watched s)
    (hcall : s.countsCall prim i (.found id user) c) (hrow : s.world.users.lookup id = some user)
    (hwrong : attempt.next (.found id user) c (exec prim s.world s.clock c i).2 = .wrong id user)
    (hmax : MAX_FAILED_ATTEMPTS ≤ (wrongTimes id s.log).length) :
    ∀ y ∈ wrongTimes id s.log, y + LOCKOUT_SECS ≤ s.clock := by
  cases c with
  | verifyCode id' secret code =>
    rcases hvalid : prim.codeValid secret code s.clock with - | -
    · simp only [Sessions.countsCall, hvalid, Bool.false_or, Bool.and_eq_true, Bool.not_eq_true',
        decide_eq_true_eq, Bool.or_eq_true] at hcall
      obtain ⟨⟨hlocked, hissuing⟩, hn⟩ := hcall
      have htally := (h.tally id user hrow).resolve_left (by omega)
      exact htally.spaced hlocked hn hmax
    · simp only [exec, hvalid] at hwrong
      cases hwrong
  | clear username =>
    by_cases hmfa : user.mfaConfirmedAt.isSome
    · have hnext : ∀ r, attempt.next (.found id user) (.clear username) r = .idle :=
        fun r => if_pos hmfa
      rw [hnext] at hwrong
      cases hwrong
    · have hnext : ∀ r, attempt.next (.found id user) (.clear username) r = .issuing id user :=
        fun r => if_neg hmfa
      rw [hnext] at hwrong
      cases hwrong
  | _ => cases hwrong

theorem go {j : ℕ} {q : Request} {k : Reply c → Handler Response} (h : Watched s)
    (hok : s.countsCodes prim (.go j i)) (hj : s.jobs.lookup j = some ⟨q, .call c k⟩)
    (htracks : (s.perform (service prim) j q c k i).Tracks attempt) :
    Watched (s.perform (service prim) j q c k i) := by
  have hcall : s.countsCall prim i (s.stateOf attempt j q) c := by
    rw [Sessions.countsCodes, hj] at hok
    exact hok
  have hstep : SignInStep s.world s.clock (s.stateOf attempt j q) c _ _ _ :=
    exec_signInStep (h.tracks.allows hj) (countsCall_expects (i := i) hcall)
  have husers : (s.perform (service prim) j q c k i).world.users = s.world.users := hstep.users
  have hfound := fun id user => h.found j _ id user hj
  refine ⟨htracks, fun j' job id user hj' hu => ?_, fun id => hstep.past (h.past id),
    fun id user hrow => ?_, fun id => ?_⟩
  · rw [husers]
    rw [Pool.lookup_perform] at hj'
    rw [Pool.stateOf_perform] at hu
    by_cases heq : j' = j
    · subst heq
      rw [if_pos rfl] at hj' hu
      cases hj'
      rcases hstep.user hu with hu | hrow
      · exact hfound id user hu
      · exact hrow
    · rw [if_neg heq] at hj'
      rw [if_neg fun he => heq he.symm] at hu
      exact h.found j' job id user hj' hu
  · rw [husers] at hrow
    refine hstep.tally hrow hfound (Pool.countIn_perform hj) (Pool.countIn_perform hj) (h.past id)
      (fun user' hl hidle hc => ?_) (h.tally id user hrow)
    rw [hl] at hcall hidle
    exact forgets_nothing hcall hidle hc
  · refine hstep.spaced (h.spaced id) fun user hl hwrong hmax => ?_
    have hrow := hfound id user (hl ▸ rfl)
    rw [hl] at hcall hwrong
    exact h.late hcall hrow hwrong hmax

theorem step (h : Watched s) (hok : s.countsCodes prim a) (hs : Pool.Steps (service prim) s a s') :
    Watched s' := by
  have htracks := h.tracks.step (fits_attempt hok) hs
  cases hs with
  | go j i q c k hj => exact h.go hok hj htracks
  | start q =>
    refine ⟨htracks, fun j job id user hj hu => ?_, h.past, fun id user hrow => ?_, h.spaced⟩
    · rw [Dict.lookup_insert] at hj
      split_ifs at hj with heq
      · -- the request has not found anyone yet
        rw [← Option.some.inj hj, heq] at hu
        change (attempt.after _ _ s.log).user = _ at hu
        rw [attempt.after_eq_of_forall fun e he => Nat.ne_of_lt (h.tracks.past e he)] at hu
        cases hu
      · exact h.found j job id user hj hu
    · unfold Sessions.issuing Sessions.unrecorded
      rw [Pool.countIn_start h.tracks rfl, Pool.countIn_start h.tracks rfl]
      exact h.tally id user hrow
  | drop j =>
    have hstage : ∀ id job, s.jobs.lookup j = some job →
        (s.stateOf attempt j job.request).isWrong id = false ∧
          (s.stateOf attempt j job.request).isIssuing id = false := by
      intro id job hj
      rw [Sessions.countsCodes, hj] at hok
      dsimp only [Option.all_some] at hok
      split at hok
      · cases hok
      · cases hok
      · rename_i hnw hni
        cases hst : s.stateOf attempt j job.request with
        | wrong id' user => exact absurd hst (hnw id' user)
        | issuing id' user => exact absurd hst (hni id' user)
        | _ => exact ⟨rfl, rfl⟩
    refine ⟨htracks, fun j' job id user hj hu => ?_, h.past, fun id user hrow => ?_, h.spaced⟩
    · rw [Dict.lookup_erase] at hj
      split_ifs at hj
      exact h.found j' job id user hj hu
    · unfold Sessions.issuing Sessions.unrecorded
      rw [Pool.countIn_drop fun job hj => (hstage id job hj).1,
        Pool.countIn_drop fun job hj => (hstage id job hj).2]
      exact h.tally id user hrow
  | tick d =>
    refine ⟨htracks, h.found, fun id x hx => ?_, h.tally, h.spaced⟩
    exact Nat.le_trans (h.past id x hx) (Nat.le_add_right _ d)

end Watched

/-! ## The lockout -/

/-- **The lockout.** In every run of sign-ins under the condition, once as many wrong codes of a user as
are allowed have been evaluated since their last session, each further one comes a lockout after all
before it. -/
theorem mfa_lockout (prim : Primitives) (db : Db) (clock : ℕ) (s : Sessions)
    (hr : Reach (Sessions.step prim) (fun s a => s.countsCodes prim a) (Pool.new db clock) s)
    (id : String) : Spaced (wrongTimes id s.log) := by
  have hinv : Watched s := hr.invariant Watched (watched_new db clock)
    fun s a s' h hok hs => h.step hok (Pool.step_steps hs)
  exact hinv.spaced id

def Db.withMfa : Db := .single "u1" ⟨"alice", "secret", .admin, some "totp", some 0⟩ ∅ 0

def password (j : ℕ) : List AuthAction :=
  .start (.login "alice" "secret") :: List.replicate 4 (.go j .done)

def wrongCode (j : ℕ) : List AuthAction :=
  .start (.mfaVerify "u1" "000000") :: List.replicate 5 (.go j .done)

/-- Six requests with wrong codes that are all checked before the first code is evaluated. -/
def wrongCodesAtOnce : List AuthAction :=
  List.replicate 6 (.start (.mfaVerify "u1" "000000")) ++
    (List.range 6).flatMap (fun j => List.replicate 3 (.go j .done)) ++
    (List.range 6).map (fun j => .go j .done)

/-- Four wrong codes, the right password, and four wrong codes again: eight wrong codes without a
session or a lockout. Six requests at once: six wrong codes. -/
theorem lockout_evaded :
    (∃ s, Reach (Sessions.step .plain) anyStep (Pool.new Db.withMfa 0) s ∧
      wrongTimes "u1" s.log = List.replicate 8 0) ∧
    (∃ s, Reach (Sessions.step .plain) anyStep (Pool.new Db.withMfa 0) s ∧
      wrongTimes "u1" s.log = List.replicate 6 0) ∧
    ¬ Spaced (List.replicate 8 0) ∧ ¬ Spaced (List.replicate 6 0) := by
  refine ⟨exists_reach (password 0 ++ wrongCode 1 ++ wrongCode 2 ++ wrongCode 3 ++ wrongCode 4 ++
      password 5 ++ wrongCode 6 ++ wrongCode 7 ++ wrongCode 8 ++ wrongCode 9) (by decide +kernel),
    exists_reach wrongCodesAtOnce (by decide +kernel), fun h => ?_, fun h => ?_⟩
  · exact absurd (h.1 (by decide) 0 (by decide)) (by decide)
  · exact absurd (h.1 (by decide) 0 (by decide)) (by decide)

/-- Five wrong codes one after another, and a sixth one after the lockout. -/
theorem mfa_lockout_sixth :
    ∃ s, Reach (Sessions.step .plain) (fun s a => s.countsCodes .plain a) (Pool.new Db.withMfa 0) s ∧
      wrongTimes "u1" s.log = [LOCKOUT_SECS, 0, 0, 0, 0, 0] ∧ Spaced (wrongTimes "u1" s.log) :=
  (exists_guarded (password 0 ++ wrongCode 1 ++ wrongCode 2 ++ wrongCode 3 ++ wrongCode 4 ++
    wrongCode 5 ++ [.tick LOCKOUT_SECS] ++ wrongCode 6) (by decide +kernel)).imp fun s h =>
      ⟨h.1, h.2, mfa_lockout .plain Db.withMfa 0 s h.1 "u1"⟩

end Nullnet.Auth
