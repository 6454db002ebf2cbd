import Nullnet.Auth.UserSteps

/-! # A confirmed secret was proved

`confirm_handler` checks a code against the secret that it has read, and then marks the secret of the
row as confirmed; `setup_handler` and `disable_handler` replace and clear a confirmed secret after such
a check. If the secret of the row is still the one that was read when they write
(`Accounts.readsCurrent`), then every confirmed secret was proved by a code after it was stored, and a
confirmed secret is replaced or cleared only by a request that has proved it or by another administrator
(`confirmed_secret_proved`). Nothing ensures this (`unproved_secret_confirmed`). -/

namespace Nullnet.Auth

open Nullnet.Lib

/-! ## History -/

def storedBy : (c : AccountCall) → AccountReply c → Option (String × String)
  | .setMfaPending id secretEnc, some () => some (id, secretEnc)
  | _, _ => none

def verifiedBy : (c : AccountCall) → AccountReply c → Option (String × String)
  | .auth (.verifyCode id secret _), true => some (id, secret)
  | _, _ => none

section

variable (prim : Cipher) (db : Db) (log : List (Entry AccountCall AccountReply)) (id : String)

/-- The secret was stored for the user, in the calls so far or before them. -/
def Stored (secretEnc : String) : Prop :=
  (∃ e ∈ log, storedBy e.call e.reply = some (id, secretEnc)) ∨
    ∃ u, db.users.lookup id = some u ∧ u.mfaSecretEnc = some secretEnc

/-- A code for the secret was shown after it was stored. -/
def Proved (secretEnc : String) : Prop :=
  ∃ l₁ e l₂ secret, log = l₁ ++ e :: l₂ ∧ prim.decrypt secretEnc = some secret ∧
    verifiedBy e.call e.reply = some (id, secret) ∧ Stored db l₂ id secretEnc

/-- The secret was confirmed before, and none was stored since. -/
def WasConfirmed (secretEnc : Option String) : Prop :=
  (∃ u, db.users.lookup id = some u ∧ u.mfaConfirmedAt.isSome ∧ u.mfaSecretEnc = secretEnc) ∧
    ∀ e ∈ log, ∀ secretEnc', storedBy e.call e.reply ≠ some (id, secretEnc')

end

section

variable {prim : Cipher} {db : Db} {log : List (Entry AccountCall AccountReply)} {id secretEnc : String}

theorem Stored.cons (h : Stored db log id secretEnc) (e : Entry AccountCall AccountReply) :
    Stored db (e :: log) id secretEnc :=
  h.imp_left fun ⟨e', he', hs⟩ => ⟨e', List.mem_cons_of_mem e he', hs⟩

theorem Proved.cons (h : Proved prim db log id secretEnc) (e : Entry AccountCall AccountReply) :
    Proved prim db (e :: log) id secretEnc := by
  obtain ⟨l1, e', l2, secret, hlog, hrest⟩ := h
  exact ⟨e :: l1, e', l2, secret, congrArg (List.cons e) hlog, hrest⟩

end

/-! ## The condition -/

/-- The secret that is confirmed, replaced or cleared is the one that the request has read; one that was
not confirmed when it was read is still not when it is replaced. -/
def Reading.current (l : Reading) (users : Dict String User) : AccountCall → Bool
  | .confirmMfa id => (users.lookup id).all fun u =>
      l.target.any fun x => x.1 = id && x.2.mfaSecretEnc = u.mfaSecretEnc
  | .setMfaPending id _ => (users.lookup id).all fun u => u.mfaConfirmedAt.isNone ||
      l.target.any fun x => x.1 = id && x.2.mfaSecretEnc = u.mfaSecretEnc && x.2.mfaConfirmedAt.isSome
  | .auth (.clearMfa id) => l.request.resetsOther id || (users.lookup id).all fun u =>
      u.mfaConfirmedAt.isNone || l.target.any fun x => x.1 = id && x.2.mfaSecretEnc = u.mfaSecretEnc
  | _ => true

/-- The condition on a step: what is carried out is about the secret that was read. -/
def Accounts.readsCurrent (prim : Cipher) (s : Accounts) : AccountAction → Bool
  | .go j i => (s.jobs.lookup j).all fun job => job.prog.next.all fun c =>
      !s.world.carriesOut i c || (s.stateOf (readings prim) j job.request).current s.world.users c
  | _ => true

/-! ## Rows -/

variable {db : Db} {now : ℕ} {c : AccountCall}

theorem UserStep.mfa {db' : Db} {done : Bool}
    (h : UserStep db now c done db') {k : String} {u' : User} (hu' : db'.users.lookup k = some u') :
    (∃ u, db.users.lookup k = some u ∧ u'.mfaSecretEnc = u.mfaSecretEnc ∧
      (u'.mfaConfirmedAt = u.mfaConfirmedAt ∨ done = true ∧ c = .confirmMfa k ∧ u'.mfaConfirmedAt.isSome)) ∨
    u'.mfaSecretEnc = none ∧ u'.mfaConfirmedAt = none ∧ (db.users.lookup k = none ∨
      done = true ∧ c = .auth (.clearMfa k)) ∨
    ∃ secretEnc, done = true ∧ c = .setMfaPending k secretEnc ∧ u'.mfaSecretEnc = some secretEnc ∧
      u'.mfaConfirmedAt = none := by
  cases h with
  | same hc h =>
    rw [h] at hu'
    exact .inl ⟨u', hu', rfl, .inl rfl⟩
  | @change id f hdone hf h =>
    rw [h k, Dict.lookup_modify] at hu'
    split_ifs at hu' with hk
    · subst hk
      obtain ⟨u, hu, rfl⟩ := Option.map_eq_some_iff.mp hu'
      cases c with
      | auth c =>
        cases c with
        | update =>
          cases hf
          exact .inl ⟨u, hu, rfl, .inl rfl⟩
        | clearMfa =>
          cases hf
          exact .inr (.inl ⟨rfl, rfl, .inr ⟨hdone, rfl⟩⟩)
        | _ => cases hf
      | setMfaPending =>
        cases hf
        exact .inr (.inr ⟨_, hdone, rfl, rfl, rfl⟩)
      | confirmMfa =>
        cases hf
        exact .inl ⟨u, hu, rfl, .inr ⟨hdone, rfl, rfl⟩⟩
      | _ => cases hf
    · exact .inl ⟨u', hu', rfl, .inl rfl⟩
  | create hdone hc hid h =>
    rw [h, Dict.lookup_insert] at hu'
    split_ifs at hu' with hk
    · cases hu'
      exact .inr (.inl ⟨rfl, rfl, .inl (hk ▸ hid)⟩)
    · exact .inl ⟨u', hu', rfl, .inl rfl⟩
  | delete hdone hc h =>
    rw [h, Dict.lookup_erase] at hu'
    split_ifs at hu'
    exact .inl ⟨u', hu', rfl, .inl rfl⟩

theorem unconfirmed_of_stored {prim : Cipher} {i : Draw} {id secretEnc : String} {u : User}
    (hs : storedBy c (accountExec prim db now c i).2 = some (id, secretEnc))
    (hu : (accountExec prim db now c i).1.users.lookup id = some u) : u.mfaConfirmedAt = none := by
  obtain ⟨o, text⟩ := i
  cases c with
  | setMfaPending id' secretEnc' =>
    cases o with
    | failed => cases hs
    | done =>
      obtain ⟨rfl, rfl⟩ := Prod.mk.inj (Option.some.inj hs)
      change (db.users.modify id' _).lookup id' = some u at hu
      rw [Dict.lookup_modify_self] at hu
      obtain ⟨u0, -, rfl⟩ := Option.map_eq_some_iff.mp hu
      rfl
  | _ => cases hs

/-! ## Readings -/

theorem reading_exec (prim : Cipher) (db : Db) (now : ℕ) (l : Reading) (c : AccountCall) (i : Draw) :
    let r := (accountExec prim db now c i).2
    l.next c r = l ∨ (∃ n, l.next c r = { l with count := n }) ∨
    (∃ id u, db.users.lookup id = some u ∧
      l.next c r = { l with target := some (id, u), count := none, verified := none }) ∨
    ∃ id secret code, c = .auth (.verifyCode id secret code) ∧ verifiedBy c r = some (id, secret) ∧
      l.next c r = { l with verified := some secret } := by
  rcases i with ⟨o, text⟩
  by_cases hc : c.isPlain = true
  · exact .inl (next_of_isPlain hc _)
  · rcases c with c | _ | _ | _ | _ | _ | _ | _ <;> first | exact .inl rfl | skip
    cases c with
    | byId id =>
      cases o with
      | failed => exact .inl rfl
      | done =>
        rcases hu : db.users.lookup id with - | u <;> simp only [accountExec, exec, Db.read, hu]
        · exact .inl rfl
        · exact .inr (.inr (.inl ⟨id, u, hu, rfl⟩))
    | countAdmins =>
      cases o with
      | failed => exact .inl rfl
      | done => exact .inr (.inl ⟨_, rfl⟩)
    | verifyCode id secret code =>
      rcases hv : prim.codeValid secret code now <;> simp only [accountExec, exec, hv]
      · exact .inl rfl
      · exact .inr (.inr (.inr ⟨id, secret, code, rfl, rfl, rfl⟩))
    | _ => exact .inl rfl

theorem request_next (l : Reading) (c : AccountCall) (r : AccountReply c) :
    (l.next c r).request = l.request := by
  unfold Reading.next
  split <;> rfl

theorem request_stateOf (prim : Cipher) (s : Accounts) (j : ℕ) (q : AccountRequest) :
    (s.stateOf (readings prim) j q).request = q := by
  unfold Pool.stateOf
  induction s.log with
  | nil => rfl
  | cons e log ih =>
    rw [Typestate.after]
    split_ifs
    · exact (request_next _ _ _).trans ih
    · exact ih

/-! ## Runs -/

/-- What is known of secrets in every state: those in rows and those that requests have read were stored,
codes were shown for the secrets that had been read before, and confirmed secrets were proved. -/
structure MfaHistory (prim : Cipher) (db : Db) (s : Accounts) : Prop where
  tracks : s.Tracks (readings prim)
  stored : ∀ id u secretEnc, s.world.users.lookup id = some u → u.mfaSecretEnc = some secretEnc →
    Stored db s.log id secretEnc
  read : ∀ j job, s.jobs.lookup j = some job → ∀ id u secretEnc,
    (s.stateOf (readings prim) j job.request).target = some (id, u) →
      u.mfaSecretEnc = some secretEnc → Stored db s.log id secretEnc
  shown : ∀ j job, s.jobs.lookup j = some job → ∀ secret,
    (s.stateOf (readings prim) j job.request).verified = some secret → ∃ id u,
      (s.stateOf (readings prim) j job.request).target = some (id, u) ∧ ∃ l₁ e l₂,
        s.log = l₁ ++ e :: l₂ ∧ e.job = j ∧ verifiedBy e.call e.reply = some (id, secret) ∧
        ∀ secretEnc, u.mfaSecretEnc = some secretEnc → Stored db l₂ id secretEnc
  confirmed : ∀ id u, s.world.users.lookup id = some u → u.mfaConfirmedAt.isSome →
    (∃ secretEnc, u.mfaSecretEnc = some secretEnc ∧ Proved prim db s.log id secretEnc) ∨
      WasConfirmed db s.log id u.mfaSecretEnc

namespace MfaHistory

variable {prim : Cipher} {db : Db} {s s' : Accounts} {a : AccountAction} {j : ℕ}
  {q : AccountRequest} {id secretEnc : String} {u : User} {i : Draw} {c : AccountCall}
  {k : AccountReply c → AccountHandler Answered}

theorem new (prim : Cipher) (db : Db) (clock : ℕ) : MfaHistory prim db (Pool.new db clock) where
  tracks := Pool.tracks_new db clock
  stored id u secretEnc hu henc := .inr ⟨u, hu, henc⟩
  read := by rintro j job ⟨⟩
  shown := by rintro j job ⟨⟩
  confirmed id u hu hconf := .inr ⟨⟨u, hu, hconf, rfl⟩, nofun⟩

theorem proved (h : MfaHistory prim db s)
    {p : AccountHandler Answered} (hj : s.jobs.lookup j = some ⟨q, p⟩)
    (hproves : (s.stateOf (readings prim) j q).Proves prim id u)
    (henc : u.mfaSecretEnc = some secretEnc) :
    ∃ l1 e l2 secret, s.log = l1 ++ e :: l2 ∧ e.job = j ∧ prim.decrypt secretEnc = some secret ∧
      verifiedBy e.call e.reply = some (id, secret) ∧ Stored db l2 id secretEnc := by
  obtain ⟨htarget, secretEnc', secret, henc', hsecret, hverified⟩ := hproves
  obtain rfl : secretEnc' = secretEnc := Option.some.inj (henc'.symm.trans henc)
  obtain ⟨id', u', htarget', l1, e, l2, hlog, hjob, hshown, hstored⟩ := h.shown j _ hj secret hverified
  cases htarget.symm.trans htarget'
  exact ⟨l1, e, l2, secret, hlog, hjob, hsecret, hshown, hstored secretEnc' henc⟩

theorem current (hok : s.readsCurrent prim (.go j i))
    (hj : s.jobs.lookup j = some ⟨q, .call c k⟩) (hdone : s.world.carriesOut i c = true) :
    (s.stateOf (readings prim) j q).current s.world.users c = true := by
  rw [Accounts.readsCurrent, hj] at hok
  change (!s.world.carriesOut i c || Reading.current _ _ c) = true at hok
  rwa [hdone, Bool.not_true, Bool.false_or] at hok

theorem stored_perform (h : MfaHistory prim db s)
    (hu : (accountExec prim s.world s.clock c i).1.users.lookup id = some u)
    (henc : u.mfaSecretEnc = some secretEnc) :
    Stored db (s.perform (accountService prim) j q c k i).log id secretEnc := by
  rcases (accountExec_userStep prim s.world s.clock c i).mfa hu with
    ⟨u0, hu0, henc0, -⟩ | ⟨hnone, -⟩ | ⟨secretEnc', hdone, rfl, henc', -⟩
  · exact (h.stored id u0 secretEnc hu0 (henc0.symm.trans henc)).cons _
  · cases hnone.symm.trans henc
  · cases henc'.symm.trans henc
    obtain ⟨o, text⟩ := i
    obtain rfl : o = .done := of_decide_eq_true hdone
    exact .inl ⟨_, List.mem_cons_self, rfl⟩

theorem confirmed_perform (h : MfaHistory prim db s) (hok : s.readsCurrent prim (.go j i))
    (hj : s.jobs.lookup j = some ⟨q, .call c k⟩)
    (hu : (accountExec prim s.world s.clock c i).1.users.lookup id = some u)
    (hconf : u.mfaConfirmedAt.isSome) : (∃ secretEnc, u.mfaSecretEnc = some secretEnc ∧
      Proved prim db (s.perform (accountService prim) j q c k i).log id secretEnc) ∨
        WasConfirmed db (s.perform (accountService prim) j q c k i).log id u.mfaSecretEnc := by
  rcases (accountExec_userStep prim s.world s.clock c i).mfa hu with
    ⟨u0, hu0, henc0, hconf0 | ⟨hdone, rfl, -⟩⟩ | ⟨-, hnone, -⟩ | ⟨secretEnc', -, -, -, hnone⟩
  · rw [hconf0] at hconf
    rcases h.confirmed id u0 hu0 hconf with ⟨secretEnc, henc, hproved⟩ | ⟨hwas, hno⟩
    · exact .inl ⟨secretEnc, henc0.trans henc, hproved.cons _⟩
    · refine .inr ⟨henc0 ▸ hwas, fun e he secretEnc' hstored => ?_⟩
      rcases List.mem_cons.mp he with rfl | he
      · rw [← hconf0, unconfirmed_of_stored hstored hu] at hconf
        cases hconf
      · exact hno e he secretEnc' hstored
  · -- the secret is the one that the request has read, and it has shown a code for that
    obtain ⟨u1, hproves⟩ : ∃ u1, Reading.Proves prim _ id u1 := h.tracks.allows hj
    have hcurrent := current hok hj hdone
    rw [Reading.current, hu0, Option.all_some, hproves.1, Option.any_some, Bool.and_eq_true] at hcurrent
    have hsame : u1.mfaSecretEnc = u0.mfaSecretEnc := of_decide_eq_true hcurrent.2
    obtain ⟨secretEnc, secret, henc, -⟩ := hproves.2
    obtain ⟨l1, e, l2, secret, hlog, -, hrest⟩ := h.proved hj hproves henc
    have hproved : Proved prim db s.log id secretEnc := ⟨l1, e, l2, secret, hlog, hrest⟩
    exact .inl ⟨secretEnc, henc0.trans (hsame.symm.trans henc), hproved.cons _⟩
  · rw [hnone] at hconf
    cases hconf
  · rw [hnone] at hconf
    cases hconf

theorem reading_perform (h : s.Tracks (readings prim)) (hj : s.jobs.lookup j = some ⟨q, .call c k⟩)
    {j' : ℕ} {job' : Job AccountRequest AccountCall AccountReply Answered}
    (hj' : (s.perform (accountService prim) j q c k i).jobs.lookup j' = some job') :
    ∃ job l', s.jobs.lookup j' = some job ∧
      (s.perform (accountService prim) j q c k i).stateOf (readings prim) j' job'.request = l' ∧
      (l'.target = (s.stateOf (readings prim) j' job.request).target ∧
        l'.verified = (s.stateOf (readings prim) j' job.request).verified ∨
      (∃ id u, s.world.users.lookup id = some u ∧ l'.target = some (id, u) ∧ l'.verified = none) ∨
      ∃ id secret u, j = j' ∧
        verifiedBy c (accountExec prim s.world s.clock c i).2 = some (id, secret) ∧
        (s.stateOf (readings prim) j' job.request).target = some (id, u) ∧
        l'.target = some (id, u) ∧ l'.verified = some secret) := by
  rw [Pool.lookup_perform] at hj'
  rw [Pool.stateOf_perform]
  split_ifs at hj' with heq
  · subst heq
    cases hj'
    rw [if_pos rfl]
    refine ⟨_, _, hj, rfl, ?_⟩
    change (Reading.next _ c (accountExec prim s.world s.clock c i).2).target = _ ∧
      (Reading.next _ c (accountExec prim s.world s.clock c i).2).verified = _ ∨ _
    rcases reading_exec prim s.world s.clock (s.stateOf (readings prim) j' q) c i with
      hnext | ⟨n, hnext⟩ | ⟨id, u, hu, hnext⟩ | ⟨id, secret, code, rfl, hverified, hnext⟩
    · exact .inl ⟨congrArg _ hnext, congrArg _ hnext⟩
    · exact .inl ⟨(congrArg Reading.target hnext).trans rfl, (congrArg Reading.verified hnext).trans rfl⟩
    · exact .inr (.inl ⟨id, u, hu, congrArg _ hnext, congrArg _ hnext⟩)
    · obtain ⟨u, hu⟩ : ∃ u, (s.stateOf (readings prim) j' q).target = some (id, u) := h.allows hj
      exact .inr (.inr ⟨id, secret, u, rfl, hverified, hu, (congrArg _ hnext).trans hu, congrArg _ hnext⟩)
  · rw [if_neg (Ne.symm heq)]
    exact ⟨job', _, hj', rfl, .inl ⟨rfl, rfl⟩⟩

theorem step (h : MfaHistory prim db s) (hok : s.readsCurrent prim a)
    (hs : Pool.Steps (accountService prim) s a s') : MfaHistory prim db s' := by
  have htracks : s'.Tracks (readings prim) := h.tracks.step (by
    cases a with
    | start q => exact obeys_readings q
    | go j i => exact fun _ _ _ _ => trivial
    | drop j => trivial
    | tick d => trivial) hs
  cases hs with
  | tick d => exact ⟨htracks, h.stored, h.read, h.shown, h.confirmed⟩
  | drop j =>
    have hold {j' : ℕ} {job : Job AccountRequest AccountCall AccountReply Answered}
        (hj' : (s.jobs.erase j).lookup j' = some job) : s.jobs.lookup j' = some job := by
      rw [Dict.lookup_erase] at hj'
      split_ifs at hj'
      exact hj'
    exact ⟨htracks, h.stored, fun j' job hj' => h.read j' job (hold hj'),
      fun j' job hj' => h.shown j' job (hold hj'), h.confirmed⟩
  | start q =>
    have hold {j' : ℕ} {job : Job AccountRequest AccountCall AccountReply Answered}
        (hj' : (s.jobs.insert s.nextJob ⟨q, accountHandle prim q⟩).lookup j' = some job) :
        s.jobs.lookup j' = some job ∨ s.stateOf (readings prim) j' job.request = ⟨q, none, none, none⟩ := by
      rw [Dict.lookup_insert] at hj'
      split_ifs at hj' with heq
      · cases hj'
        exact .inr (heq ▸ h.tracks.stateOf_new q)
      · exact .inl hj'
    refine ⟨htracks, h.stored, fun j' job hj' id u secretEnc hread => ?_,
      fun j' job hj' secret hshown => ?_, h.confirmed⟩
    · rcases hold hj' with hj' | hnew
      · exact h.read j' job hj' id u secretEnc hread
      · cases (congrArg Reading.target hnew).symm.trans hread
    · rcases hold hj' with hj' | hnew
      · exact h.shown j' job hj' secret hshown
      · cases (congrArg Reading.verified hnew).symm.trans hshown
  | go j i q c k hj =>
    refine ⟨htracks, fun id u secretEnc => h.stored_perform, fun j' job' hj' => ?_, fun j' job' hj' => ?_,
      fun id u => h.confirmed_perform hok hj⟩
    · obtain ⟨job, l', hold, rfl, ⟨htarget, -⟩ | ⟨id, u, hu, htarget, -⟩ |
        ⟨id, secret, u, -, -, hold', htarget, -⟩⟩ := reading_perform h.tracks hj hj'
      · intro id u secretEnc hread henc
        exact (h.read j' job hold id u secretEnc (htarget.symm.trans hread) henc).cons _
      · intro id' u' secretEnc hread henc
        cases htarget.symm.trans hread
        exact (h.stored id u secretEnc hu henc).cons _
      · intro id' u' secretEnc hread henc
        cases htarget.symm.trans hread
        exact (h.read j' job hold id u secretEnc hold' henc).cons _
    · obtain ⟨job, l', hold, rfl, ⟨htarget, hverified⟩ | ⟨id, u, -, -, hnone⟩ |
        ⟨id, secret, u, rfl, hnow, hold', htarget, hverified⟩⟩ := reading_perform h.tracks hj hj'
      · intro secret hshown
        obtain ⟨id, u, hu, l1, e, l2, hlog, hrest⟩ := h.shown j' job hold secret (hverified.symm.trans hshown)
        exact ⟨id, u, htarget.trans hu, _ :: l1, e, l2, congrArg (List.cons _) hlog, hrest⟩
      · intro secret hshown
        cases hnone.symm.trans hshown
      · intro secret' hshown
        cases hverified.symm.trans hshown
        exact ⟨id, u, htarget, [], _, s.log, rfl, rfl, hnow,
          fun secretEnc henc => h.read j job hold id u secretEnc hold' henc⟩

/-- A confirmed secret is lost only to who has shown a code for it, or to another administrator. -/
theorem lost (h : MfaHistory prim db s) (hok : s.readsCurrent prim a)
    (hs : Pool.Steps (accountService prim) s a s') {u' : User}
    (hu : s.world.users.lookup id = some u) (hconf : u.mfaConfirmedAt.isSome)
    (henc : u.mfaSecretEnc = some secretEnc) (hu' : s'.world.users.lookup id = some u')
    (hlost : u'.mfaSecretEnc ≠ some secretEnc ∨ u'.mfaConfirmedAt = none) :
    ∃ j i job, a = .go j i ∧ s.jobs.lookup j = some job ∧
      ((∃ e ∈ s.log, e.job = j ∧ ∃ secret, prim.decrypt secretEnc = some secret ∧
        verifiedBy e.call e.reply = some (id, secret)) ∨ job.request.resetsOther id) := by
  have hkept {s'' : Accounts} (hsame : s''.world = s.world)
      (hu'' : s''.world.users.lookup id = some u') : False := by
    rw [hsame, hu] at hu''
    cases hu''
    rcases hlost with hlost | hlost
    · exact hlost henc
    · rw [hlost] at hconf
      cases hconf
  cases hs with
  | start | drop | tick => exact (hkept rfl hu').elim
  | go j i q c k hj =>
    refine ⟨j, i, _, rfl, hj, ?_⟩
    have hallows : Reading.Allows prim _ c := h.tracks.allows hj
    have hnotNone : u.mfaConfirmedAt.isNone = false := Option.isNone_eq_false_iff.mpr hconf
    -- the request has read the secret, and has shown a code for it
    have hshown {u1 : User} (hproves : (s.stateOf (readings prim) j q).Proves prim id u1)
        (hsame : u1.mfaSecretEnc = u.mfaSecretEnc) : ∃ e ∈ s.log, e.job = j ∧
          ∃ secret, prim.decrypt secretEnc = some secret ∧
            verifiedBy e.call e.reply = some (id, secret) := by
      obtain ⟨l1, e, l2, secret, hlog, hjob, hsecret, hverified, -⟩ :=
        h.proved hj hproves (hsame.trans henc)
      exact ⟨e, hlog ▸ List.mem_append_right _ List.mem_cons_self, hjob, secret, hsecret, hverified⟩
    rcases (accountExec_userStep prim s.world s.clock c i).mfa hu' with
      ⟨u0, hu0, henc0, hconf0⟩ | ⟨-, -, hnone | ⟨hdone, rfl⟩⟩ | ⟨secretEnc', hdone, rfl, -⟩
    · cases hu0.symm.trans hu
      exfalso
      rcases hlost with hlost | hlost
      · exact hlost (henc0.trans henc)
      · rcases hconf0 with hconf0 | ⟨-, -, hconf0⟩
        · rw [← hconf0, hlost] at hconf
          cases hconf
        · rw [hlost] at hconf0
          cases hconf0
    · rw [hnone] at hu
      cases hu
    · have hcurrent := current hok hj hdone
      rw [Reading.current, request_stateOf, hu, Option.all_some, hnotNone, Bool.false_or] at hcurrent
      rcases hallows with hother | ⟨u1, hproves⟩
      · exact .inr ((request_stateOf prim s j q) ▸ hother)
      · rcases Bool.or_eq_true_iff.mp hcurrent with hother | hcurrent
        · exact .inr hother
        · rw [hproves.1, Option.any_some, Bool.and_eq_true] at hcurrent
          exact .inl (hshown hproves (of_decide_eq_true hcurrent.2))
    · have hcurrent := current hok hj hdone
      obtain ⟨u1, htarget, hproves⟩ := hallows
      rw [Reading.current, hu, Option.all_some, hnotNone, Bool.false_or, htarget, Option.any_some,
        Bool.and_eq_true, Bool.and_eq_true] at hcurrent
      exact .inl (hshown (hproves hcurrent.2) (of_decide_eq_true hcurrent.1.2))

end MfaHistory

/-- **A confirmed secret was proved**, and is lost only to who has proved it or to another
administrator, in every run in which the secret that is confirmed, replaced or cleared is the one that
the request has read. -/
theorem confirmed_secret_proved (prim : Cipher) (db : Db) (clock : ℕ) (s : Accounts)
    (hs : Reach (Accounts.step prim) (fun s a => s.readsCurrent prim a) (Pool.new db clock) s) :
    (∀ id u, s.world.users.lookup id = some u → u.mfaConfirmedAt.isSome →
      (∃ secretEnc, u.mfaSecretEnc = some secretEnc ∧ Proved prim db s.log id secretEnc) ∨
        WasConfirmed db s.log id u.mfaSecretEnc) ∧
    ∀ a s', s.readsCurrent prim a → s.step prim a = some s' → ∀ id u secretEnc u',
      s.world.users.lookup id = some u → u.mfaConfirmedAt.isSome → u.mfaSecretEnc = some secretEnc →
      s'.world.users.lookup id = some u' →
      u'.mfaSecretEnc ≠ some secretEnc ∨ u'.mfaConfirmedAt = none →
      ∃ j i job, a = .go j i ∧ s.jobs.lookup j = some job ∧
        ((∃ e ∈ s.log, e.job = j ∧ ∃ secret, prim.decrypt secretEnc = some secret ∧
          verifiedBy e.call e.reply = some (id, secret)) ∨ job.request.resetsOther id) := by
  have hhistory : MfaHistory prim db s :=
    hs.invariant (MfaHistory prim db) (.new prim db clock) fun s a s' h hok hstep =>
      h.step hok (Pool.step_steps hstep)
  refine ⟨hhistory.confirmed, fun a s' hok hstep id u secretEnc u' hu hconf henc hu' hlost => ?_⟩
  exact hhistory.lost hok (Pool.step_steps hstep) hu hconf henc hu' hlost

section Script

def setupMfa : AccountAction := .start (.mfaSetup ⟨"u1", .admin⟩ none)

def confirmA : AccountAction := .start (.mfaConfirm ⟨"u1", .admin⟩ "A")

/-- A request reads the row, draws the secret A, and stores it. -/
def storeA : List AccountAction := [setupMfa, .go 0 {}, .go 0 { text := "A" }, .go 0 {}, .go 0 {}]

def Db.mfaOf (db : Db) (id : String) : Option (Option String × Bool) :=
  (db.users.lookup id).map fun u => (u.mfaSecretEnc, u.mfaConfirmedAt.isSome)

end Script

/-- A request has checked a code for the secret A when another one replaces it by B; then it marks B as
confirmed. The other way round, a request that has read that A is not confirmed replaces it by B after
it was. -/
theorem unproved_secret_confirmed :
    (∃ s, Reach (Accounts.step .plain) anyStep (Pool.new .signedIn 0) s ∧
      s.world.mfaOf "u1" = some (some "B", true) ∧ ¬ Proved .plain .signedIn s.log "u1" "B") ∧
    ∃ s s', Reach (Accounts.step .plain) anyStep (Pool.new .signedIn 0) s ∧
      s.world.mfaOf "u1" = some (some "A", true) ∧ s.step .plain (.go 2 {}) = some s' ∧
      s'.world.mfaOf "u1" = some (some "B", false) ∧
      ∀ e ∈ s.log, e.job = 2 → verifiedBy e.call e.reply = none := by
  constructor
  · obtain ⟨s, hs, hmfa, hlog⟩ : ∃ s, Reach (Accounts.step .plain) anyStep (Pool.new .signedIn 0) s ∧
        s.world.mfaOf "u1" = some (some "B", true) ∧
        ∀ e ∈ s.log, verifiedBy e.call e.reply ≠ some ("u1", "B") :=
      exists_reach (storeA ++ [confirmA, .go 1 {}, .go 1 {}, setupMfa, .go 2 {},
        .go 2 { text := "B" }, .go 2 {}, .go 2 {}, .go 1 {}]) (by decide +kernel)
    refine ⟨s, hs, hmfa, ?_⟩
    rintro ⟨l₁, e, l₂, secret, hsplit, hsecret, hverified, -⟩
    obtain rfl : "B" = secret := Option.some.inj hsecret
    exact hlog e (by simp [hsplit]) hverified
  · obtain ⟨s, hs, hmfa, s', hs', h⟩ : ∃ s, Reach (Accounts.step .plain) anyStep
        (Pool.new .signedIn 0) s ∧ s.world.mfaOf "u1" = some (some "A", true) ∧
        ∃ s', s.step .plain (.go 2 {}) = some s' ∧ s'.world.mfaOf "u1" = some (some "B", false) ∧
          ∀ e ∈ s.log, e.job = 2 → verifiedBy e.call e.reply = none :=
      exists_reach (storeA ++ [confirmA, .go 1 {}, .go 1 {}, setupMfa, .go 2 {},
        .go 2 { text := "B" }, .go 2 {}, .go 1 {}]) (by decide +kernel)
    exact ⟨s, s', hs, hmfa, hs', h⟩

/-- A secret is stored and confirmed, and was proved. -/
theorem confirmed_secret_proved_inTurn :
    ∃ s, Reach (Accounts.step .plain) (fun s a => s.readsCurrent .plain a) (Pool.new .signedIn 0) s ∧
      s.world.mfaOf "u1" = some (some "A", true) ∧ Proved .plain .signedIn s.log "u1" "A" := by
  refine (exists_guarded (storeA ++ [confirmA, .go 1 {}, .go 1 {}, .go 1 {}]) (by decide +kernel)).imp
    fun s h => ⟨h.1, h.2, ?_⟩
  obtain ⟨u, hu, hsecret⟩ := Option.map_eq_some_iff.mp h.2
  obtain ⟨henc, hconf⟩ := Prod.mk.inj hsecret
  rcases (confirmed_secret_proved .plain .signedIn 0 s h.1).1 "u1" u hu hconf with
    ⟨secretEnc, henc', hproved⟩ | ⟨⟨u₀, hu₀, hconf₀, -⟩, -⟩
  · cases henc.symm.trans henc'
    exact hproved
  · cases hu₀
    cases hconf₀

end Nullnet.Auth
