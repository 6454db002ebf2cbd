import Nullnet.Client.Host

/-! # Claims of triggers

`TriggersState` elects one packet of a container to ask the server for a network. Here an entry has the
identity of its `Notify` and the time of its claim, and the calls that have been made are logged, the
latest first. Entries are found by a loop over a map, so each call names the one that its loop finds. -/

namespace Nullnet.Client.Triggers

open Nullnet.Lib
open Nullnet.Server (Ipv4Addr)

/-- In nanoseconds. -/
def PENDING_TIMEOUT : ℕ := 35 * 10 ^ 9

abbrev Key := String × UInt16

structure Entry where
  lifecycle : Lifecycle
  notify : ℕ
  /-- When a pending entry was made. -/
  since : ℕ

inductive Event
  | started (key : Key) (owner time : ℕ)
  | prepared (key : Key) (vxlanId : ℕ)
  | ready (vxlanId : ℕ)
  /-- Forgotten, or removed. -/
  | ended (key : Key)
  deriving DecidableEq

def Event.startedBy (owner : ℕ) : Event → Bool
  | .started _ n _ => n = owner
  | _ => false

structure Table where
  byKey : Dict Key Entry := ∅
  now : ℕ := 0
  nextNotify : ℕ := 0
  log : List Event := []

inductive TriggerState
  | fresh
  | pending
  | active
  deriving DecidableEq

inductive TriggerClaim
  | start (notify : ℕ)
  | pending (notify : ℕ)
  | active
  deriving DecidableEq

inductive Call
  | wait (time : ℕ)
  | claim (key : Key) (containerIp : Ipv4Addr)
  | markPrepared (key : Key) (vxlanId : ℕ) (overlayIp containerIp : Ipv4Addr)
  | markReady (vxlanId : ℕ) (found : Option Key)
  | forgetPending (key : Key) (owner : ℕ)
  | removeByVxlan (vxlanId : ℕ) (found : Option Key)

def Entry.markReady (e : Entry) : Entry :=
  match e.lifecycle with
  | .installed _ id overlayIp containerIp => { e with lifecycle := .installed true id overlayIp containerIp }
  | .pending _ => e

namespace Table

def state (s : Table) (key : Key) : TriggerState :=
  match s.byKey.lookup key with
  | some ⟨.installed true _ _ _, _, _⟩ => .active
  | some ⟨.installed false _ _ _, _, _⟩ => .pending
  | some ⟨.pending _, _, since⟩ => if s.now - since < PENDING_TIMEOUT then .pending else .fresh
  | none => .fresh

def start (s : Table) (key : Key) (containerIp : Ipv4Addr) : Table :=
  { s with
    byKey := s.byKey.insert key ⟨.pending containerIp, s.nextNotify, s.now⟩
    nextNotify := s.nextNotify + 1
    log := .started key s.nextNotify s.now :: s.log }

def claim (s : Table) (key : Key) (containerIp : Ipv4Addr) : TriggerClaim × Table :=
  match s.byKey.lookup key with
  | some ⟨.installed true _ _ _, _, _⟩ => (.active, s)
  | some ⟨.installed false _ _ _, notify, _⟩ => (.pending notify, s)
  | some ⟨.pending _, notify, since⟩ =>
    if s.now - since < PENDING_TIMEOUT then (.pending notify, s)
    else (.start s.nextNotify, s.start key containerIp)
  | none => (.start s.nextNotify, s.start key containerIp)

def markPrepared (s : Table) (key : Key) (vxlanId : ℕ) (overlayIp containerIp : Ipv4Addr) : Table :=
  let notify := (s.byKey.lookup key).elim s.nextNotify (·.notify)
  { s with
    byKey := s.byKey.insert key ⟨.installed false vxlanId overlayIp containerIp, notify, s.now⟩
    nextNotify := s.nextNotify + 1
    log := .prepared key vxlanId :: s.log }

/-- A loop over the map may find this entry for a network. -/
def finds (s : Table) (vxlanId : ℕ) : Option Key → Bool
  | some key => (s.byKey.lookup key).any (·.lifecycle.isOf vxlanId)
  | none => (s.byKey.first fun _ e => e.lifecycle.isOf vxlanId).isNone

def markReady (s : Table) (vxlanId : ℕ) (found : Option Key) : Table :=
  { s with
    byKey := found.elim s.byKey (s.byKey.modify · Entry.markReady)
    log := .ready vxlanId :: s.log }

def drop (s : Table) (key : Key) : Table :=
  { s with byKey := s.byKey.erase key, log := .ended key :: s.log }

def forgetPending (s : Table) (key : Key) (owner : ℕ) : Table :=
  match s.byKey.lookup key with
  | some ⟨.pending _, notify, _⟩ => if notify = owner then s.drop key else s
  | _ => s

def removeByVxlan (s : Table) (found : Option Key) : Table := found.elim s s.drop

def step (s : Table) : Call → Option Table
  | .wait time => some { s with now := s.now + time }
  | .claim key containerIp => some (s.claim key containerIp).2
  | .markPrepared key id overlayIp containerIp => some (s.markPrepared key id overlayIp containerIp)
  | .markReady id found => if s.finds id found then some (s.markReady id found) else none
  | .forgetPending key owner => some (s.forgetPending key owner)
  | .removeByVxlan id found => if s.finds id found then some (s.removeByVxlan found) else none

end Table

/-! ## What the log says about the entries -/

/-- `l` is what was logged after an event. -/
def After (log : List Event) (e : Event) (l : List Event) : Prop := ∃ l₀, log = l ++ e :: l₀

/-- The calls that an entry stands for. -/
def Justified (log : List Event) (key : Key) (e : Entry) : Prop :=
  (∀ ip, e.lifecycle = .pending ip → .started key e.notify e.since ∈ log) ∧
  ∀ r id o c, e.lifecycle = .installed r id o c → ∃ l, After log (.prepared key id) l ∧
    (∀ id', .prepared key id' ∉ l) ∧ (r = true → .ready id ∈ l)

structure Inv (s : Table) : Prop where
  justified : ∀ k e, s.byKey.lookup k = some e → Justified s.log k e
  /-- The latest start of a key has its entry until it ends. -/
  period : ∀ k n t l, After s.log (.started k n t) l → .ended k ∉ l → (∀ n t, .started k n t ∉ l) →
    ∃ e, s.byKey.lookup k = some e ∧ ∀ ip, e.lifecycle = .pending ip → e.since = t
  once : ∀ n, s.log.countP (·.startedBy n) ≤ if n < s.nextNotify then 1 else 0

variable {s : Table} {log l : List Event} {x e : Event} {key k : Key} {entry : Entry}

theorem After.cons (h : After log e l) : After (x :: log) e (x :: l) :=
  let ⟨l0, h⟩ := h
  ⟨l0, by rw [h, List.cons_append]⟩

theorem After.mem (h : After log e l) : e ∈ log := by
  obtain ⟨l0, rfl⟩ := h
  simp

theorem After.of_cons (h : After (x :: log) e l) :
    l = [] ∧ x = e ∨ ∃ l', l = x :: l' ∧ After log e l' := by
  obtain ⟨l0, h⟩ := h
  cases l with
  | nil => cases h; exact .inl ⟨rfl, rfl⟩
  | cons y l => cases h; exact .inr ⟨l, rfl, l0, rfl⟩

/-- Only a new preparation takes the place of one. -/
theorem Justified.push (h : Justified log key entry) (hx : ∀ id, x ≠ .prepared key id) :
    Justified (x :: log) key entry := by
  refine ⟨fun ip hp => .tail _ (h.1 ip hp), fun r id o c hi => ?_⟩
  obtain ⟨l, ha, hl, hr⟩ := h.2 r id o c hi
  exact ⟨x :: l, ha.cons, fun id' => List.not_mem_cons_of_ne_of_not_mem (hx id').symm (hl id'),
    fun h => .tail _ (hr h)⟩

theorem Inv.push (h : Inv s) {byKey : Dict Key Entry} {next : ℕ} (hx : ∀ n, x.startedBy n = false)
    (hn : s.nextNotify ≤ next) (hj : ∀ k e, byKey.lookup k = some e → Justified (x :: s.log) k e)
    (hk : ∀ k e, s.byKey.lookup k = some e → x ≠ .ended k → ∃ e', byKey.lookup k = some e' ∧
      ∀ ip, e'.lifecycle = .pending ip → e' = e) :
    Inv { s with byKey := byKey, nextNotify := next, log := x :: s.log } where
  justified := hj
  period := by
    intro k n t l ha hl hs
    rcases ha.of_cons with ⟨-, rfl⟩ | ⟨l', rfl, ha'⟩
    · simpa [Event.startedBy] using hx n
    · obtain ⟨e, he, ht⟩ := h.period k n t l' ha' (hl <| .tail _ ·) (hs · · <| .tail _ ·)
      obtain ⟨e', he', hp⟩ := hk k e he fun hx => hl (hx ▸ .head _)
      exact ⟨e', he', fun ip h => hp ip h ▸ ht ip (hp ip h ▸ h)⟩
  once n := by
    rw [List.countP_cons_of_neg (by rw [hx]; decide)]
    refine (h.once n).trans ?_
    dsimp only
    split_ifs <;> omega

/-! ## One call -/

theorem Inv.drop (h : Inv s) (key : Key) : Inv (s.drop key) := by
  refine h.push (fun _ => rfl) le_rfl (fun k e he => ?_) fun k e he hne => ⟨e, ?_, fun _ _ => rfl⟩
  · exact (h.justified k e (Dict.of_lookup_erase he).2).push nofun
  · rw [Dict.lookup_erase, if_neg fun hk => hne (by rw [hk]), he]

theorem Inv.start (h : Inv s) (key : Key) (ip : Ipv4Addr) : Inv (s.start key ip) where
  justified k e he := by
    rcases Dict.of_lookup_insert he with ⟨rfl, rfl⟩ | ⟨-, he⟩
    · exact ⟨fun _ _ => .head _, nofun⟩
    · exact (h.justified k e he).push nofun
  period k n t l ha hl hs := by
    rcases ha.of_cons with ⟨-, he⟩ | ⟨l', rfl, ha'⟩
    · cases he
      exact ⟨_, AList.lookup_insert _, fun _ _ => rfl⟩
    · have hk : k ≠ key := by rintro rfl; exact hs _ _ (.head _)
      obtain ⟨e, he, ht⟩ := h.period k n t l' ha' (hl <| .tail _ ·) (hs · · <| .tail _ ·)
      exact ⟨e, (AList.lookup_insert_ne hk).trans he, ht⟩
  once n := by
    have h1 := h.once n
    have hx : (Event.started key s.nextNotify s.now).startedBy n = decide (s.nextNotify = n) := rfl
    show (_ :: s.log).countP _ ≤ if n < s.nextNotify + 1 then 1 else 0
    rw [List.countP_cons, hx]
    simp only [decide_eq_true_eq]
    split_ifs at h1 ⊢ <;> omega

theorem Inv.claim (h : Inv s) (key : Key) (ip : Ipv4Addr) : Inv (s.claim key ip).2 := by
  unfold Table.claim
  split <;> try split
  all_goals first | exact h | exact h.start key ip

theorem Inv.markPrepared (h : Inv s) (key : Key) (id : ℕ) (o c : Ipv4Addr) :
    Inv (s.markPrepared key id o c) := by
  refine h.push (fun _ => rfl) (Nat.le_succ _) (fun k e he => ?_) fun k e he _ => ?_
  · rcases Dict.of_lookup_insert he with ⟨rfl, rfl⟩ | ⟨hk, he⟩
    · refine ⟨nofun, fun r id' o' c' hi => ?_⟩
      cases hi
      exact ⟨[], ⟨s.log, rfl⟩, fun _ => List.not_mem_nil, nofun⟩
    · exact (h.justified k e he).push fun _ hx => hk (Event.prepared.inj hx).1.symm
  · by_cases hk : k = key
    · subst hk
      exact ⟨_, AList.lookup_insert _, nofun⟩
    · exact ⟨e, (AList.lookup_insert_ne hk).trans he, fun _ _ => rfl⟩

theorem Justified.markReady {id : ℕ} (h : Justified log key entry) (hid : entry.lifecycle.isOf id) :
    Justified (.ready id :: log) key entry.markReady := by
  obtain ⟨ip | ⟨r, id', o, c⟩, n, t⟩ := entry
  · cases hid
  · refine ⟨nofun, fun r' i o' c' hi => ?_⟩
    cases hi
    obtain ⟨l, ha, hl, -⟩ := h.2 r id' o c rfl
    obtain rfl : id' = id := of_decide_eq_true hid
    exact ⟨_, ha.cons, fun i => List.not_mem_cons_of_ne_of_not_mem nofun (hl i), fun _ => .head _⟩

theorem Inv.markReady (h : Inv s) {id : ℕ} {found : Option Key} (hf : s.finds id found) :
    Inv (s.markReady id found) := by
  have hlog : ∀ k e, s.byKey.lookup k = some e → Justified (.ready id :: s.log) k e :=
    fun k e he => (h.justified k e he).push nofun
  cases found with
  | none => exact h.push (fun _ => rfl) le_rfl hlog fun k e he _ => ⟨e, he, fun _ _ => rfl⟩
  | some key =>
    obtain ⟨w, hw, hid⟩ := (Option.any_eq_true _ _).mp hf
    refine h.push (fun _ => rfl) le_rfl (fun k e he => ?_) fun k e he _ => ?_
    · rcases Dict.of_lookup_modify_of hw he with ⟨rfl, rfl⟩ | ⟨-, he⟩
      · exact (h.justified _ w hw).markReady hid
      · exact hlog k e he
    · by_cases hk : k = key
      · subst hk
        refine ⟨w.markReady, by rw [Option.elim_some, Dict.lookup_modify_self, hw]; rfl, ?_⟩
        obtain ⟨_ | _, n, t⟩ := w
        · cases hid
        · exact nofun
      · exact ⟨e, (Dict.lookup_modify_ne hk _ _).trans he, fun _ _ => rfl⟩

theorem Inv.forgetPending (h : Inv s) (key : Key) (owner : ℕ) : Inv (s.forgetPending key owner) := by
  unfold Table.forgetPending
  split <;> try split
  all_goals first | exact h | exact h.drop key

theorem Inv.step {s' : Table} {c : Call} (h : Inv s) (hs : s.step c = some s') : Inv s' := by
  cases c with
  | wait time =>
    cases hs
    exact ⟨h.justified, h.period, h.once⟩
  | claim key ip => cases hs; exact h.claim key ip
  | markPrepared key id o c => cases hs; exact h.markPrepared key id o c
  | forgetPending key owner => cases hs; exact h.forgetPending key owner
  | markReady id found =>
    obtain ⟨hf, ⟨⟩⟩ := Option.ite_none_right_eq_some.mp hs
    exact h.markReady hf
  | removeByVxlan id found =>
    obtain ⟨-, ⟨⟩⟩ := Option.ite_none_right_eq_some.mp hs
    cases found with
    | none => exact h
    | some key => exact h.drop key

/-! ## Every run -/

theorem inv_reach (h : Reach Table.step anyStep {} s) : Inv s := by
  refine h.invariant _ ⟨?_, ?_, fun n => Nat.zero_le _⟩ fun s c s' ih _ hs => ih.step hs
  · intro k e he
    cases he
  · intro k n t l ha
    exact nomatch ha.mem

/-- **The protocol of claims.** A claim starts only if the latest start of its key has ended, or
is as old as the timeout. An active entry was reported ready after it was prepared. Only the pending entry
of a claim's own start is forgotten. -/
theorem claim_protocol (h : Reach Table.step anyStep {} s) (key : Key) :
    (∀ ip n, (s.claim key ip).1 = .start n → ∀ m t l, After s.log (.started key m t) l →
      .ended key ∉ l → (∀ m t, .started key m t ∉ l) → PENDING_TIMEOUT ≤ s.now - t) ∧
    ((s.state key = .active ∨ ∃ ip, (s.claim key ip).1 = .active) →
      ∃ e id, s.byKey.lookup key = some e ∧ e.lifecycle.isOf id ∧ ∃ l, After s.log (.prepared key id) l ∧
        (∀ id', .prepared key id' ∉ l) ∧ .ready id ∈ l) ∧
    ∀ owner k, (s.forgetPending key owner).byKey.lookup k ≠ s.byKey.lookup k →
      k = key ∧ ∃ ip t, s.byKey.lookup key = some ⟨.pending ip, owner, t⟩ ∧
        .started key owner t ∈ s.log ∧ s.log.countP (·.startedBy owner) = 1 := by
  have hi := inv_reach h
  refine ⟨fun ip n hc m t l ha hl hl' => ?_, fun hs => ?_, fun owner k hk => ?_⟩
  · obtain ⟨e, he, ht⟩ := hi.period key m t l ha hl hl'
    obtain ⟨ip' | ⟨r, id, o, c⟩, n', since⟩ := e
    · simp only [Table.claim, he] at hc
      split_ifs at hc with hy
      exact ht ip' rfl ▸ Nat.le_of_not_lt hy
    · cases r <;> simp only [Table.claim, he, reduceCtorEq] at hc
  · have ha : ∃ id o c n t, s.byKey.lookup key = some ⟨.installed true id o c, n, t⟩ := by
      rcases hs with hs | ⟨ip, hs⟩
      · unfold Table.state at hs
        split at hs
        · exact ⟨_, _, _, _, _, ‹_›⟩
        all_goals first | cases hs | (split_ifs at hs)
      · unfold Table.claim at hs
        split at hs
        · exact ⟨_, _, _, _, _, ‹_›⟩
        all_goals first | cases hs | (split_ifs at hs)
    obtain ⟨id, o, c, n, t, he⟩ := ha
    obtain ⟨l, ha, hl, hr⟩ := (hi.justified key _ he).2 _ _ _ _ rfl
    exact ⟨_, id, he, decide_eq_true rfl, l, ha, hl, hr rfl⟩
  · unfold Table.forgetPending at hk
    split at hk
    · rename_i ip n t he
      split_ifs at hk with ho
      · have hkey : k = key := by
          by_contra hne
          exact hk (AList.lookup_erase_ne hne)
        have hm : .started key n t ∈ s.log := (hi.justified key _ he).1 ip rfl
        have h1 : 0 < s.log.countP (·.startedBy n) := List.countP_pos_iff.mpr ⟨_, hm, decide_eq_true rfl⟩
        have h2 := hi.once n
        subst ho
        refine ⟨hkey, ip, t, he, hm, ?_⟩
        split_ifs at h2 <;> omega
      · exact absurd rfl hk
    · exact absurd rfl hk

/-- A second packet waits for the first one's claim, and may start after its time. -/
theorem claim_protocol_web : ∃ s, Reach Table.step anyStep {} s ∧
    ((s.claim ("web", 80) 5).1 = .start 1 ∧ ∀ m t l, After s.log (.started ("web", 80) m t) l →
      .ended ("web", 80) ∉ l → (∀ m t, .started ("web", 80) m t ∉ l) → PENDING_TIMEOUT ≤ s.now - t) :=
  (exists_reach [.claim ("web", 80) 5, .wait 7, .claim ("web", 80) 5, .wait PENDING_TIMEOUT]
    (by decide +kernel)).imp fun _ h => ⟨h.1, h.2, (claim_protocol h.1 _).1 5 1 h.2⟩

end Nullnet.Client.Triggers
