import Nullnet.Auth.UserSteps

/-! # The last administrator

`update_handler` and `delete_handler` count the administrators before they take the role of one or
delete one. The count and the write are two calls. If the count is still greater than one when the
write is carried out (`Accounts.sparesAdmin`), then there is always an administrator
(`never_without_admin`); if it is not, then there is none after the write. -/

namespace Nullnet.Auth

open Nullnet.Lib

/-! ## Counting -/

def adminCount (users : Dict String User) : ℕ := users.entries.countP fun e => e.2.role = .admin

def isAdmin (users : Dict String User) (id : String) : Bool :=
  (users.lookup id).any fun u => u.role = .admin

section

variable {users users' : Dict String User} {id : String}

theorem adminCount_congr (h : ∀ k, (users.lookup k).map (·.role) = (users'.lookup k).map (·.role)) :
    adminCount users = adminCount users' := by
  have key (users : Dict String User) : adminCount users =
      (users.entries.map fun e => (e.1, e.2.role)).countP fun x => x.2 = .admin := by
    rw [List.countP_map]
    rfl
  rw [key, key]
  exact (Dict.perm_of_lookup h).countP_eq _

theorem adminCount_modify (users : Dict String User) (id : String) (f : User → User) :
    adminCount (users.modify id f) + (if isAdmin users id then 1 else 0) =
      adminCount users + (if isAdmin (users.modify id f) id then 1 else 0) := by
  rcases hu : users.lookup id with - | u
  · rw [Dict.modify_of_notMem f hu]
  · obtain ⟨l1, l2, hl, h1, h2⟩ := Dict.entries_split hu
    rw [isAdmin, isAdmin, Dict.lookup_modify_self, hu, adminCount, adminCount,
      Dict.modify_entries f hl h1 h2, hl]
    simp only [List.countP_append, List.countP_cons, Option.map_some, Option.any_some]
    omega

theorem adminCount_erase (users : Dict String User) (id : String) :
    adminCount (users.erase id) + (if isAdmin users id then 1 else 0) = adminCount users := by
  rcases hu : users.lookup id with - | u
  · have hsame : ∀ k, (users.erase id).lookup k = users.lookup k := by
      intro k
      rw [Dict.lookup_erase]
      split_ifs with hk
      · rw [hk, hu]
      · rfl
    rw [isAdmin, hu, adminCount_congr fun k => congrArg _ (hsame k)]
    rfl
  · obtain ⟨l1, l2, hl, h1, -⟩ := Dict.entries_split hu
    rw [isAdmin, hu, adminCount, adminCount, Dict.erase_entries hl h1, hl]
    simp only [List.countP_append, List.countP_cons, Option.any_some]
    omega

theorem adminCount_insert {u : User} (hid : users.lookup id = none) :
    adminCount users ≤ adminCount (users.insert id u) := by
  have hk : id ∉ users.entries.keys := fun hm => by
    have := AList.lookup_isSome.mpr (AList.mem_keys.mpr hm)
    simp [hid] at this
  have hins : (users.insert id u).entries = ⟨id, u⟩ :: users.entries :=
    congrArg (List.cons _) (List.kerase_of_notMem_keys hk)
  rw [adminCount, adminCount, hins]
  exact (List.sublist_cons_self _ _).countP_le

end

/-- The call takes the role of an administrator away, or deletes one. -/
def Db.removesAdmin (db : Db) : AccountCall → Bool
  | .auth (.update id _ role _) => isAdmin db.users id && role = some .user
  | .delete id => isAdmin db.users id
  | _ => false

/-- **The number of administrators** becomes less by one if the call takes one away, and not less
otherwise. -/
theorem UserStep.countAdmins {db db' : Db} {now : ℕ} {c : AccountCall} {done : Bool}
    (h : UserStep db now c done db') :
    if done && db.removesAdmin c then db'.countAdmins + 1 = db.countAdmins
    else db.countAdmins ≤ db'.countAdmins := by
  change if done && db.removesAdmin c then adminCount db'.users + 1 = adminCount db.users
    else adminCount db.users ≤ adminCount db'.users
  cases h with
  | same hc h =>
    have hno : (done && db.removesAdmin c) = false := by
      rcases hc with hc | rfl
      · rcases c with c | _ | _ | _ | _ | _ | _ | _ <;> first | exact Bool.and_false _ | cases hc | skip
        cases c <;> first | exact Bool.and_false _ | cases hc
      · rfl
    rw [hno, if_neg Bool.false_ne_true, h]
  | @change id f hdone hf h =>
    have hcount := adminCount_modify db.users id f
    rw [hdone, Bool.true_and, adminCount_congr fun k => congrArg _ (h k)]
    have hafter : isAdmin (db.users.modify id f) id =
        (db.users.lookup id).any fun u => (f u).role = .admin := by
      rw [isAdmin, Dict.lookup_modify_self, Option.any_map]
    -- a call that leaves the role leaves the number
    have hkept (hrole : ∀ u, (f u).role = u.role) : adminCount db.users ≤
        adminCount (db.users.modify id f) := by
      simp only [hrole] at hafter
      rw [hafter] at hcount
      exact Nat.le_of_eq (Nat.add_right_cancel hcount).symm
    cases c with
    | auth c =>
      cases c with
      | update id' username role passwordHash =>
        obtain ⟨rfl, rfl⟩ := Prod.mk.inj (Option.some.inj hf)
        change if (isAdmin db.users id' && role = some .user) = true then _ else _
        rw [hafter, isAdmin] at hcount
        rw [isAdmin]
        rcases hu : db.users.lookup id' with - | u <;> rw [hu] at hcount
        · exact Nat.le_of_eq hcount.symm
        · rcases hrole : u.role <;> rcases role with - | - | - <;> simp [hrole] at hcount ⊢ <;> omega
      | clearMfa id' =>
        obtain ⟨rfl, rfl⟩ := Prod.mk.inj (Option.some.inj hf)
        exact hkept fun _ => rfl
      | _ => cases hf
    | setMfaPending | confirmMfa =>
      obtain ⟨rfl, rfl⟩ := Prod.mk.inj (Option.some.inj hf)
      exact hkept fun _ => rfl
    | _ => cases hf
  | create hdone hc hid h =>
    subst hc
    rw [hdone, Bool.true_and, h]
    exact adminCount_insert hid
  | @delete id hdone hc h =>
    subst hc
    rw [hdone, Bool.true_and, h]
    have hcount := adminCount_erase db.users id
    change if isAdmin db.users id = true then _ else _
    split_ifs at hcount ⊢
    · exact hcount
    · exact Nat.le_of_eq hcount.symm

/-! ## Runs -/

/-- A call that takes an administrator away is carried out only while there are others. -/
def Accounts.sparesAdmin (s : Accounts) : AccountAction → Bool
  | .go j i => (s.nextCall j).all fun c =>
      !(s.world.carriesOut i c && s.world.removesAdmin c) || 1 < s.world.countAdmins
  | _ => true

/-- What a request has read is still so: the role of the user, and that there are as many
administrators. -/
def Accounts.ReadsStill (prim : Cipher) (s : Accounts) (j : ℕ) : Prop :=
  ∀ job, s.jobs.lookup j = some job →
    (∀ id u u', (s.stateOf (readings prim) j job.request).target = some (id, u) →
      s.world.users.lookup id = some u' → u'.role = u.role) ∧
    ∀ n, (s.stateOf (readings prim) j job.request).count = some n → n ≤ s.world.countAdmins

variable {prim : Cipher} {s s' : Accounts}

theorem countAdmins_step {a : AccountAction} (hs : s.step prim a = some s') :
    (s.sparesAdmin a = true → 0 < s.world.countAdmins → 0 < s'.world.countAdmins) ∧
      (s.sparesAdmin a = false → s'.world.countAdmins = 0) := by
  cases Pool.step_steps hs with
  | start | drop | tick => exact ⟨fun _ h => h, nofun⟩
  | go j i q c k hj =>
    have hnext : s.nextCall j = some c := by
      rw [Pool.nextCall, hj]
      rfl
    have hcount := (accountExec_userStep prim s.world s.clock c i).countAdmins
    change (s.sparesAdmin (.go j i) = true → _ → 0 < (accountExec prim s.world s.clock c i).1.countAdmins) ∧
      (_ → (accountExec prim s.world s.clock c i).1.countAdmins = 0)
    rw [Accounts.sparesAdmin, hnext, Option.all_some]
    split_ifs at hcount with hremoves
    · rw [hremoves, Bool.not_true, Bool.false_or, decide_eq_true_eq, decide_eq_false_iff_not]
      omega
    · rw [Bool.not_eq_true] at hremoves
      rw [hremoves]
      exact ⟨fun _ h => Nat.lt_of_lt_of_le h hcount, nofun⟩

theorem sparesAdmin_of_readsStill (htracks : s.Tracks (readings prim)) {j : ℕ}
    (hreads : s.ReadsStill prim j) (i : Draw) : s.sparesAdmin (.go j i) = true := by
  rw [Accounts.sparesAdmin, Option.all_eq_true]
  intro c hc
  obtain ⟨⟨q, prog⟩, hj, hprog⟩ := Option.bind_eq_some_iff.mp hc
  cases prog with
  | ret => cases hprog
  | call c' k =>
    cases hprog
    have hallows : Reading.Allows prim _ c := htracks.allows hj
    obtain ⟨hrole, hcount⟩ := hreads _ hj
    have hothers {id : String} (hadmin : isAdmin s.world.users id = true)
        (hspares : (s.stateOf (readings prim) j q).Spares id) : 1 < s.world.countAdmins := by
      obtain ⟨u', hu', hadmin⟩ := (Option.any_eq_true _ _).mp hadmin
      obtain ⟨u, hu, hguard⟩ := hspares
      have hadmin' : u.role = .admin := (hrole id u u' hu hu').symm.trans (of_decide_eq_true hadmin)
      obtain ⟨n, hn, hlt⟩ := hguard hadmin'
      exact Nat.lt_of_lt_of_le hlt (hcount n hn)
    by_cases hremoves : s.world.removesAdmin c = true
    · rw [decide_eq_true (?_ : 1 < s.world.countAdmins), Bool.or_true]
      cases c with
      | auth c =>
        cases c with
        | update id username role passwordHash =>
          obtain ⟨hadmin, huser⟩ := Bool.and_eq_true_iff.mp hremoves
          exact hothers hadmin (hallows (of_decide_eq_true huser))
        | _ => cases hremoves
      | delete id => exact hothers hremoves hallows
      | _ => cases hremoves
    · rw [Bool.not_eq_true] at hremoves
      rw [hremoves, Bool.and_false]
      rfl

/-- **There is always an administrator**, in every run in which calls that take one away are carried
out only while there are others. A call that is not leaves none. The condition is met by a request whose
readings have not changed. -/
theorem never_without_admin (prim : Cipher) (db : Db) (clock : ℕ) (hdb : 0 < db.countAdmins) :
    (∀ s, Reach (Accounts.step prim) (fun s a => s.sparesAdmin a) (Pool.new db clock) s →
      0 < s.world.countAdmins) ∧
    (∀ s a s', Reach (Accounts.step prim) anyStep (Pool.new db clock) s →
      s.step prim a = some s' → s.sparesAdmin a = false → s'.world.countAdmins = 0) ∧
    ∀ s j i, Reach (Accounts.step prim) anyStep (Pool.new db clock) s → s.ReadsStill prim j →
      s.sparesAdmin (.go j i) = true := by
  refine ⟨fun s hs => ?_, fun s a s' _ hstep => (countAdmins_step hstep).2, fun s j i hs hreads => ?_⟩
  · exact hs.invariant (0 < ·.world.countAdmins) hdb fun s a s' hpos hok hstep =>
      (countAdmins_step hstep).1 hok hpos
  · exact sparesAdmin_of_readsStill (tracks_readings hs) hreads i

section Script

def Db.twoAdmins : Db := (Db.signedIn.create "u2" "bob" "secret" .admin).getD .signedIn

def demotion : UpdateUserReq := ⟨none, none, none, some "user", none, false, none⟩

/-- The first administrator takes the role of the second one, who deletes the first one. -/
def removals : List AccountAction :=
  [.start (.updateUser ⟨"u1", .admin⟩ "u2" demotion), .start (.deleteUser ⟨"u2", .admin⟩ "u1")]

end Script

/-- Both requests read that there are two administrators, and then each of them takes one away. -/
theorem admins_removed :
    ∃ s, Reach (Accounts.step .plain) anyStep (Pool.new .twoAdmins 0) s ∧
      Db.twoAdmins.countAdmins = 2 ∧ s.world.countAdmins = 0 :=
  exists_reach (removals ++ [.go 0 {}, .go 1 {}, .go 0 {}, .go 1 {}, .go 0 {}, .go 1 {}])
    (by decide +kernel)

/-- One after the other: the second request counts one administrator, and is turned down. -/
theorem never_without_admin_inTurn :
    ∃ s, Reach (Accounts.step .plain) (fun s a => s.sparesAdmin a) (Pool.new .twoAdmins 0) s ∧
      s.resultOf 1 = some (.response (rejected 400 "cannot delete the last remaining admin")) ∧
      0 < s.world.countAdmins :=
  (exists_guarded (removals ++ [.go 0 {}, .go 0 {}, .go 0 {}, .go 0 {}, .go 1 {}, .go 1 {}])
    (by decide +kernel)).imp fun s h =>
      ⟨h.1, h.2, (never_without_admin .plain .twoAdmins 0 (by decide +kernel)).1 s h.1⟩

end Nullnet.Auth
