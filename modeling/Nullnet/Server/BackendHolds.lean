import Nullnet.Server.Placement

/-! # Backend sessions and the holds they account for

A trigger port that brought up the edge to its peer has a backend session, which stands for one chain
count on that edge. So a section that decrements the edge for a trigger port
(`Effect.triggerDecrement`) should remove the session of that port (`Effect.sessionRemoved`), and
there should be no such decrement without a session (`Matched`).

`teardownBackendChain` goes by the *configured* trigger ports instead: a port without a session is
released as well, if another chain uses the edge to its peer (`unmatched_decrement`). A call is sound if
this does not happen (`Event.sound`); then its decrements are matched. The reaper removes the sessions
first, and needs no condition (`backend_decrements_matched`). -/

namespace Nullnet.Server

open Nullnet.Lib

/-- The decrements for a trigger port are matched by sessions of the port that held an edge. -/
def Matched (log : List Effect) : Prop :=
  ∀ key, log.count (.triggerDecrement key) ≤ log.count (.sessionRemoved key false)

theorem Matched.append {l l' : List Effect} (h : Matched l) (h' : Matched l') :
    Matched (l ++ l') := by
  intro key
  have := h key
  have := h' key
  rw [List.count_append, List.count_append]
  omega

/-- The effect is not a decrement for a trigger port. -/
def Effect.Untriggered (e : Effect) : Prop := ∀ key, e ≠ .triggerDecrement key

theorem matched_of_untriggered {l : List Effect} (h : ∀ e ∈ l, e.Untriggered) : Matched l := by
  intro key
  rw [List.count_eq_zero.mpr fun hm => h _ hm key rfl]
  exact Nat.zero_le _

theorem Effect.IsTeardown.untriggered {e : Effect} (h : e.IsTeardown) : e.Untriggered := by
  obtain ⟨t, rfl⟩ := h
  rintro key ⟨⟩

theorem Effect.untriggered_of_isRow {e : Effect} (h : e.isRow) : e.Untriggered := by
  rintro key rfl
  cases h

namespace Ctx

variable {ctx : Ctx} {st name : String} {r : ReplicaId}

/-! ## Proxy chains -/

theorem teardownUnshared_untriggered (ctx : Ctx) (k : ServiceKey) (xs : List Placed)
    (seen : List ℕ) : Adds Effect.Untriggered ctx (ctx.teardownUnshared k xs seen) := by
  induction xs generalizing ctx seen with
  | nil => exact .refl _ ctx
  | cons x xs ih =>
    unfold teardownUnshared
    split_ifs
    · exact ih ctx seen
    · exact ih ctx _
    · exact .trans (.one rfl fun key h => by cases h) (ih _ _)

theorem teardownChain_untriggered (ctx : Ctx) (st name : String) (filter : ProxyFilter) :
    Adds Effect.Untriggered ctx (ctx.teardownChain st name filter) := by
  have hdeps : ∀ (ctx : Ctx) (x : Placed),
      Adds Effect.Untriggered ctx (ctx.teardownDepChain st name x.replica) := fun ctx x =>
    .foldl (fun ctx e => (adds_decrementChain ctx _ _).mono fun e he => he.untriggered) _ _
  have hremove : ∀ (ctx : Ctx) (k : ServiceKey) (torn : List Placed),
      Adds Effect.Untriggered ctx (ctx.removeProxyClients k torn) := by
    intro ctx k torn
    have hrow : ∀ (ctx : Ctx) (x : Placed), Adds Effect.Untriggered ctx
        (ctx.emit (.closeIngress x.info.netId k.2 x.client.name)) :=
      fun ctx x => .one rfl fun key h => by cases h
    have hrows := Adds.foldl hrow torn
      { ctx with services := ctx.services.update k (·.removeClients (torn.map Placed.client)) }
    exact Adds.trans hrows (teardownUnshared_untriggered _ _ _ _)
  unfold teardownChain
  split
  · exact .refl _ ctx
  · exact (Adds.foldl hdeps _ ctx).trans (hremove _ _ _)

/-! ## Backend chains -/

/-- The edge of the client is there to be decremented. -/
def holds (ctx : Ctx) (k : ServiceKey) (c : Client) : Bool :=
  (ctx.services.registered k).any (·.holdsChain c)

/-- An edge that is there after a decrement for the same client was there before. -/
theorem holds_of_decrementChain {k k' : ServiceKey} {c : Client}
    (h : (ctx.decrementChain k c).holds k' c) : ctx.holds k' c := by
  rcases ctx.decrementChain_cases k c with ⟨he, -⟩ | ⟨r, ci, hr, hci, hp, -⟩
  · rwa [he] at h
  · by_cases hk : k' = k
    · obtain ⟨reg, hreg, hr⟩ := Option.bind_eq_some_iff.mp hr
      rw [StackMap.entry_of_registered hreg] at hci
      have hci : reg.entry r c = some ci := hci
      simp [holds, hk, hreg, Registered.holdsChain, hr, hci, hp]
    · unfold holds decrementChain at h
      rw [StackMap.registered_update, if_neg hk] at h
      exact h

theorem lookup_removeSession (ctx : Ctx) (key key' : BackendKey) :
    (ctx.removeSession key).sessions.lookup key' =
      if key' = key then none else ctx.sessions.lookup key' := by
  unfold removeSession
  split
  · exact Dict.lookup_erase ..
  · rename_i hnone
    split_ifs with hk
    · rw [hk, hnone]
    · rfl

theorem removeSession_rows (ctx : Ctx) (key : BackendKey) :
    Adds (fun e => e.isRow) ctx (ctx.removeSession key) := by
  unfold removeSession
  split
  · exact .one rfl rfl
  · exact .refl _ ctx

theorem isBuilding_removeSession (ctx : Ctx) (key key' : BackendKey) :
    (ctx.removeSession key).isBuilding key' = if key' = key then false else ctx.isBuilding key' := by
  unfold isBuilding
  rw [lookup_removeSession]
  split_ifs <;> rfl

/-- The ports that are left to be released: those without a build under way. -/
theorem cancelBuilds_spec (name : String) (r : ReplicaId) {ports : List (Σ _ : ℕ, String)}
    (ctx : Ctx) (hnd : (ports.map Sigma.fst).Nodup) : (ctx.cancelBuilds name r ports).1 =
      ports.filter (fun e => !ctx.isBuilding ⟨name, r, e.1⟩) ∧
    (ctx.cancelBuilds name r ports).2.services = ctx.services ∧
    Adds (fun e => e.isRow) ctx (ctx.cancelBuilds name r ports).2 ∧
    ∀ key, ctx.isBuilding key = false →
      (ctx.cancelBuilds name r ports).2.sessions.lookup key = ctx.sessions.lookup key := by
  induction ports generalizing ctx with
  | nil => exact ⟨rfl, rfl, .refl _ ctx, fun key _ => rfl⟩
  | cons e ports ih =>
    rw [List.map_cons, List.nodup_cons] at hnd
    unfold cancelBuilds
    split_ifs with hb
    · obtain ⟨hkept, hs, hadds, hl⟩ := ih (ctx.removeSession ⟨name, r, e.1⟩) hnd.2
      refine ⟨?_, ?_, (ctx.removeSession_rows _).trans hadds, fun key hkey => ?_⟩
      · -- the other ports have other sessions
        rw [hkept, List.filter_cons_of_neg (by simp [hb])]
        refine List.filter_congr fun e' he' => ?_
        have hne : (⟨name, r, e'.1⟩ : BackendKey) ≠ ⟨name, r, e.1⟩ := by
          intro h
          have h : e'.1 = e.1 := congrArg BackendKey.port h
          exact hnd.1 (h ▸ List.mem_map_of_mem he')
        rw [isBuilding_removeSession, if_neg hne]
      · rw [hs]
        unfold removeSession
        split <;> rfl
      · have hne : key ≠ ⟨name, r, e.1⟩ := by
          rintro rfl
          cases hb.symm.trans hkey
        rw [hl key (by rw [isBuilding_removeSession, if_neg hne, hkey]), lookup_removeSession,
          if_neg hne]
    · obtain ⟨hkept, hs, hadds, hl⟩ := ih ctx hnd.2
      refine ⟨?_, hs, hadds, hl⟩
      rw [List.filter_cons_of_pos (by simpa using hb)]
      exact congrArg (e :: ·) hkept

/-- Releasing ports: each is decremented once at most, and only if its edge was there. -/
theorem releaseTriggers_spec (st name : String) (r : ReplicaId) (ports : List (Σ _ : ℕ, String))
    (ctx : Ctx) : ∃ new,
    (ports.foldl (fun ctx e => ctx.releaseTrigger st name r e) ctx).log = new ++ ctx.log ∧
    (ports.foldl (fun ctx e => ctx.releaseTrigger st name r e) ctx).sessions = ctx.sessions ∧
    ∀ key, new.count (.triggerDecrement key) ≤ ports.countP fun e =>
      key = ⟨name, r, e.1⟩ && ctx.holds (st, e.2) (.newService name r) := by
  induction ports generalizing ctx with
  | nil => exact ⟨[], rfl, rfl, fun key => Nat.le_refl _⟩
  | cons e ports ih =>
    obtain ⟨new, hl, hs, hc⟩ := ih (ctx.releaseTrigger st name r e)
    -- the note, and the decrement itself
    obtain ⟨note, hnote, hcount⟩ : ∃ note,
        (if ctx.holds (st, e.2) (.newService name r) then
          ctx.emit (.triggerDecrement ⟨name, r, e.1⟩) else ctx) = { ctx with log := note ++ ctx.log } ∧
        ∀ key, note.count (.triggerDecrement key) =
          if key = ⟨name, r, e.1⟩ ∧ ctx.holds (st, e.2) (.newService name r) then 1 else 0 := by
      split_ifs with hh
      · refine ⟨[.triggerDecrement ⟨name, r, e.1⟩], rfl, fun key => ?_⟩
        by_cases hk : key = ⟨name, r, e.1⟩
        · simp [hk, hh]
        · simp [hk, Ne.symm hk]
      · exact ⟨[], rfl, fun key => by simp [hh]⟩
    have hrel : ctx.releaseTrigger st name r e =
        ({ ctx with log := note ++ ctx.log }).decrementChain (st, e.2) (.newService name r) := by
      rw [← hnote]
      rfl
    obtain ⟨torn, ht, hteardown⟩ := adds_decrementChain { ctx with log := note ++ ctx.log }
      (st, e.2) (.newService name r)
    refine ⟨new ++ (torn ++ note), ?_, ?_, fun key => ?_⟩
    · rw [List.foldl_cons, hl, hrel, ht]
      simp
    · rw [List.foldl_cons, hs, hrel]
      rfl
    · have hzero : torn.count (.triggerDecrement key) = 0 :=
        List.count_eq_zero.mpr fun hm => (hteardown _ hm).untriggered key rfl
      have hle : ports.countP (fun e' => key = ⟨name, r, e'.1⟩ &&
            (ctx.releaseTrigger st name r e).holds (st, e'.2) (.newService name r)) ≤
          ports.countP fun e' => key = ⟨name, r, e'.1⟩ &&
            ctx.holds (st, e'.2) (.newService name r) := by
        refine List.countP_mono_left fun e' _ h => ?_
        obtain ⟨hk, hh⟩ := Bool.and_eq_true_iff.mp h
        rw [hrel] at hh
        rw [hk, Bool.true_and]
        exact holds_of_decrementChain hh
      have := hc key
      rw [List.count_append, List.count_append, hzero, hcount, List.countP_cons]
      simp only [Bool.and_eq_true, decide_eq_true_eq]
      omega

theorem removeSessions_spec (keys : List BackendKey) (ctx : Ctx) : ∃ new,
    (keys.foldl removeSession ctx).log = new ++ ctx.log ∧ (∀ e ∈ new, Effect.isRow e) ∧
    (keys.foldl removeSession ctx).services = ctx.services ∧
    ∀ key ∈ keys, ∀ session, ctx.sessions.lookup key = some session → session.building = false →
      0 < new.count (.sessionRemoved key false) := by
  induction keys generalizing ctx with
  | nil => exact ⟨[], rfl, by simp, rfl, by simp⟩
  | cons k keys ih =>
    obtain ⟨new, hl, hrow, hs, hc⟩ := ih (ctx.removeSession k)
    obtain ⟨one, hone, hrow'⟩ := ctx.removeSession_rows k
    refine ⟨new ++ one, ?_, ?_, ?_, fun key hkey session hlookup hb => ?_⟩
    · rw [List.foldl_cons, hl, hone, List.append_assoc]
    · exact List.forall_mem_append.mpr ⟨hrow, hrow'⟩
    · rw [List.foldl_cons, hs]
      unfold removeSession
      split <;> rfl
    · rw [List.count_append]
      by_cases hk : key = k
      · subst hk
        have hlog : (ctx.removeSession key).log = .sessionRemoved key false :: ctx.log := by
          simp [removeSession, hlookup, hb]
        have : one = [.sessionRemoved key false] := by
          rw [hone] at hlog
          exact List.append_cancel_right (hlog.trans rfl)
        simp [this]
      · have hmem := (List.mem_cons.mp hkey).resolve_left hk
        have := hc key hmem session (by rw [lookup_removeSession, if_neg hk, hlookup]) hb
        omega

end Ctx

/-- The trigger ports that a call releases have a session, or no edge to release. -/
def Event.sound (ctx : Ctx) : Event → Bool
  | backend st name r onlyThrough onlyPort =>
    (ctx.services.matchingTriggers st name onlyThrough onlyPort).all fun e =>
      (ctx.sessions.lookup ⟨name, r, e.1⟩).isSome || !ctx.holds (st, e.2) (.newService name r)
  | _ => true

theorem nodup_matchingTriggers (m : StackMap) (st name : String) (onlyThrough : Option String)
    (onlyPort : Option ℕ) :
    ((m.matchingTriggers st name onlyThrough onlyPort).map Sigma.fst).Nodup := by
  unfold StackMap.matchingTriggers
  split
  · rename_i config _
    exact (List.filter_sublist.map Sigma.fst).nodup config.triggers.nodupKeys
  · exact List.nodup_nil

theorem teardownBackendChain_log (ctx : Ctx) (st name : String) (r : ReplicaId)
    (onlyThrough : Option String) (onlyPort : Option ℕ) : ∃ new,
    (ctx.teardownBackendChain st name r onlyThrough onlyPort).log = new ++ ctx.log ∧
    ∀ key, new.count (.triggerDecrement key) = 0 ∨ new.count (.triggerDecrement key) = 1 ∧
      ctx.isBuilding key = false ∧
      (∃ e ∈ ctx.services.matchingTriggers st name onlyThrough onlyPort,
        key = ⟨name, r, e.1⟩ ∧ ctx.holds (st, e.2) (.newService name r)) ∧
      ∀ session, ctx.sessions.lookup key = some session →
        0 < new.count (.sessionRemoved key false) := by
  have hnd := nodup_matchingTriggers ctx.services st name onlyThrough onlyPort
  unfold Ctx.teardownBackendChain
  set ports := ctx.services.matchingTriggers st name onlyThrough onlyPort
  obtain ⟨hkept, hserv, ⟨rows, hrows, hrow⟩, hlookup⟩ := ctx.cancelBuilds_spec name r hnd
  set ctx1 := (ctx.cancelBuilds name r ports).2
  obtain ⟨rel, hrel, hsess, hcount⟩ :=
    Ctx.releaseTriggers_spec st name r (ctx.cancelBuilds name r ports).1 ctx1
  set ctx2 := (ctx.cancelBuilds name r ports).1.foldl
    (fun ctx e => ctx.releaseTrigger st name r e) ctx1
  obtain ⟨gone, hgone, hgrow, -, hremoved⟩ :=
    Ctx.removeSessions_spec (ports.map fun e => ⟨name, r, e.1⟩) ctx2
  rw [List.foldl_map] at hgone
  refine ⟨gone ++ (rel ++ rows), by rw [hgone, hrel, hrows]; simp, fun key => ?_⟩
  have hzero : ∀ l : List Effect, (∀ e ∈ l, Effect.isRow e) → l.count (.triggerDecrement key) = 0 :=
    fun l hl => List.count_eq_zero.mpr fun hm => Effect.untriggered_of_isRow (hl _ hm) key rfl
  have hall : (gone ++ (rel ++ rows)).count (.triggerDecrement key) =
      rel.count (.triggerDecrement key) := by
    rw [List.count_append, List.count_append, hzero gone hgrow, hzero rows hrow]
    omega
  rw [hall]
  rcases Nat.eq_zero_or_pos (rel.count (.triggerDecrement key)) with h0 | hpos
  · exact .inl h0
  -- the port that is decremented
  have hle := hcount key
  rw [hkept] at hle
  have hone : (ports.filter fun e => !ctx.isBuilding ⟨name, r, e.1⟩).countP (fun e =>
      key = ⟨name, r, e.1⟩ && ctx1.holds (st, e.2) (.newService name r)) ≤ 1 := by
    calc _ ≤ ports.countP (fun e => key = ⟨name, r, e.1⟩ &&
          ctx1.holds (st, e.2) (.newService name r)) := List.filter_sublist.countP_le
      _ ≤ ports.countP ((· == key.port) ∘ Sigma.fst) := by
          refine List.countP_mono_left fun e _ h => ?_
          simp [of_decide_eq_true (Bool.and_eq_true_iff.mp h).1]
      _ = (ports.map Sigma.fst).count key.port := List.countP_map.symm
      _ ≤ 1 := List.nodup_iff_count_le_one.mp hnd key.port
  obtain ⟨e, he, hmatch⟩ := List.countP_pos_iff.mp (hpos.trans_le hle)
  obtain ⟨hmem, hb⟩ := List.mem_filter.mp he
  obtain ⟨hk, hh⟩ := Bool.and_eq_true_iff.mp hmatch
  have hk := of_decide_eq_true hk
  have hb : ctx.isBuilding key = false := by rw [hk]; simpa using hb
  refine .inr ⟨by omega, hb, ⟨e, hmem, hk, ?_⟩, fun session hs => ?_⟩
  · unfold Ctx.holds at hh ⊢
    rw [← hserv]
    exact hh
  · have hs2 : ctx2.sessions.lookup key = some session := by
      rw [hsess, hlookup key hb, hs]
    have hbs : session.building = false := by
      unfold Ctx.isBuilding at hb
      rw [hs] at hb
      exact hb
    have := hremoved key (by rw [hk]; exact List.mem_map_of_mem hmem) session hs2 hbs
    rw [List.count_append]
    omega

theorem Event.matched {ctx : Ctx} {e : Event} (h : e.sound ctx) :
    ∃ new, (e.run ctx).log = new ++ ctx.log ∧ Matched new := by
  have hnone : ∃ new, ctx.log = new ++ ctx.log ∧ Matched new :=
    ⟨[], rfl, fun key => Nat.le_refl _⟩
  cases e with
  | chain st name filter =>
    obtain ⟨new, hl, hu⟩ := ctx.teardownChain_untriggered st name filter
    exact ⟨new, hl, matched_of_untriggered hu⟩
  | backend st name r onlyThrough onlyPort =>
    obtain ⟨new, hl, hc⟩ := teardownBackendChain_log ctx st name r onlyThrough onlyPort
    refine ⟨new, hl, fun key => ?_⟩
    rcases hc key with h0 | ⟨h1, -, ⟨e, he, hk, hh⟩, hremoved⟩
    · rw [h0]
      exact Nat.zero_le _
    · -- the port has an edge to release, so it has a session
      have := List.all_eq_true.mp h e he
      rw [hh, Bool.not_true, Bool.or_false, ← hk] at this
      obtain ⟨session, hs⟩ := Option.isSome_iff_exists.mp this
      rw [h1]
      exact hremoved session hs
  | services m => exact hnone
  | sessions m => exact hnone
  | removeSession key =>
    obtain ⟨new, hl, hrow⟩ := ctx.removeSession_rows key
    exact ⟨new, hl, matched_of_untriggered fun e he => Effect.untriggered_of_isRow (hrow e he)⟩

theorem Trace.matched {drops : Bool} {ctx ctx' : Ctx} {es : List Event}
    (h : Trace drops ctx es ctx') (hs : Event.along Event.sound ctx es) :
    ∃ new, ctx'.log = new ++ ctx.log ∧ Matched new := by
  induction h with
  | nil ctx => exact ⟨[], rfl, fun key => Nat.le_refl _⟩
  | cons _ _ ih =>
    obtain ⟨he, hs⟩ := Bool.and_eq_true_iff.mp hs
    obtain ⟨new, hl, hm⟩ := Event.matched he
    obtain ⟨new', hl', hm'⟩ := ih hs
    exact ⟨new' ++ new, by rw [hl', hl, List.append_assoc], hm'.append hm⟩

/-! ## The reaper -/

/-- Releasing the hold of a port decrements for that port only, and once at most. -/
theorem releaseBackendChain_log (ctx : Ctx) (st : String) (key : BackendKey) : ∃ new,
    (ctx.releaseBackendChain st key).log = new ++ ctx.log ∧
    ∀ key', new.count (.triggerDecrement key') ≤ if key' = key then 1 else 0 := by
  obtain ⟨new, hl, hc⟩ :=
    teardownBackendChain_log ctx st key.service key.replica none (some key.port)
  refine ⟨new, hl, fun key' => ?_⟩
  rcases hc key' with h0 | ⟨h1, -, ⟨e, he, hk, -⟩, -⟩
  · rw [h0]
    exact Nat.zero_le _
  · have hport : e.1 = key.port := by
      unfold StackMap.matchingTriggers at he
      split at he
      · have := (List.mem_filter.mp he).2
        simp only [Option.all_some, Option.all_none, Bool.and_true, decide_eq_true_eq] at this
        exact this
      · cases he
    rw [h1, if_pos (by rw [hk, hport])]

theorem releaseBackendChains_log (due : List (BackendKey × String)) (ctx : Ctx) : ∃ new,
    (due.foldl (fun ctx d => ctx.releaseBackendChain d.2 d.1) ctx).log = new ++ ctx.log ∧
    ∀ key, new.count (.triggerDecrement key) ≤ (due.map Prod.fst).count key := by
  induction due generalizing ctx with
  | nil => exact ⟨[], rfl, fun key => Nat.le_refl _⟩
  | cons d due ih =>
    obtain ⟨new, hl, hc⟩ := releaseBackendChain_log ctx d.2 d.1
    obtain ⟨new', hl', hc'⟩ := ih (ctx.releaseBackendChain d.2 d.1)
    refine ⟨new' ++ new, by rw [List.foldl_cons, hl', hl, List.append_assoc], fun key => ?_⟩
    have h := hc key
    have h' := hc' key
    rw [List.count_append, List.map_cons, List.count_cons]
    by_cases hk : key = d.1
    · simp only [hk, beq_self_eq_true, if_true] at h h' ⊢
      omega
    · rw [if_neg hk] at h
      omega

/-- **The reaper** decrements only for the sessions that it has removed. -/
theorem reapIdleBackendChains_matched (ctx : Ctx) (now : ℕ) : ∃ new,
    (ctx.reapIdleBackendChains now).log = new ++ ctx.log ∧ Matched new := by
  unfold Ctx.reapIdleBackendChains
  set due := ctx.dueBackendSessions now LIVENESS_REAP_DEBOUNCE with hdue
  have hnd : (due.map Prod.fst).Nodup := by
    rw [hdue, Ctx.dueBackendSessions, List.map_map]
    exact (List.filter_sublist.map Sigma.fst).nodup ctx.sessions.nodupKeys
  obtain ⟨gone, hgone, hrow, -, hremoved⟩ := Ctx.removeSessions_spec (due.map Prod.fst) ctx
  rw [List.foldl_map] at hgone
  obtain ⟨rel, hrel, hcount⟩ := releaseBackendChains_log due
    (due.foldl (fun ctx d => ctx.removeSession d.1) ctx)
  refine ⟨rel ++ gone, by rw [hrel, hgone, List.append_assoc], fun key => ?_⟩
  have hzero : gone.count (.triggerDecrement key) = 0 :=
    List.count_eq_zero.mpr fun hm => Effect.untriggered_of_isRow (hrow _ hm) key rfl
  have hle := hcount key
  rw [List.count_append, List.count_append, hzero]
  by_cases hkey : key ∈ due.map Prod.fst
  · have hone := List.nodup_iff_count_le_one.mp hnd key
    obtain ⟨d, hd, rfl⟩ := List.mem_map.mp hkey
    obtain ⟨e, he, rfl⟩ := List.mem_map.mp hd
    obtain ⟨he, hp⟩ := List.mem_filter.mp he
    have hb : e.2.building = false := by
      simpa using (Bool.and_eq_true_iff.mp hp).1
    have hpos : 0 < gone.count (.sessionRemoved (e.1, e.2.stack).1 false) :=
      hremoved e.1 hkey e.2 (Dict.lookup_eq_some.mpr he) hb
    omega
  · rw [List.count_eq_zero.mpr hkey] at hle
    omega

/-! ## Steps -/

variable {cfg : Settings} {s s' : Grpc} {a : Action}

theorem step_trace (h : s.step cfg a = some s') : Trace true s.toCtx (s.events a) s'.toCtx ∨
      ∃ new, s'.log = new ++ s.log ∧ Matched new := by
  have hsame : s'.log = s.log → ∃ new, s'.log = new ++ s.log ∧ Matched new :=
    fun hl => ⟨[], hl, fun key => Nat.le_refl _⟩
  have hone : ∀ e : Effect, s'.log = e :: s.log → e.Untriggered →
      ∃ new, s'.log = new ++ s.log ∧ Matched new :=
    fun e hl he => ⟨[e], hl, matched_of_untriggered (by simpa using he)⟩
  cases step_netStep h with
  | quiet notes hn _ log =>
    exact .inr ⟨notes, log, matched_of_untriggered fun e he => Effect.untriggered_of_isRow (hn e he)⟩
  | change trace => exact .inl trace
  | move t job pc pc' ctx => exact .inr (hsame (by rw [ctx]))
  | reserve t job r e pc' _ _ _ _ _ log => exact .inr (hsame log)
  | allocate t job r token carrier n gc _ log => exact .inr (hone _ log nofun)
  | tear t job pc n td _ log => exact .inr (hone _ log nofun)
  | unreserve t job pc token r _ _ log => exact .inr (hsame log)
  | promote t job r r' token n gc ms e e' _ _ _ _ _ log => exact .inr (hsame log)
  | share q dedicated st key limits shared e _ _ _ _ _ _ note hn log =>
    exact .inr (hone _ log (Effect.untriggered_of_isRow hn))
  | unwind b build sessions _ _ ctx =>
    have hadds : Adds Effect.Untriggered { s.toCtx with sessions := sessions } s'.toCtx := by
      rw [ctx]
      refine .foldl (fun ctx e => ?_) _ _
      unfold Grpc.unwindEdge
      split_ifs
      · exact (adds_decrementChain _ _ _).mono fun e he => he.untriggered
      · exact .refl _ ctx
    obtain ⟨new, hl, hu⟩ := hadds
    exact .inr ⟨new, hl, matched_of_untriggered hu⟩
  | egressAllocate n _ log => exact .inr (hone _ log nofun)
  | egressTeardown td _ log => exact .inr (hone _ log nofun)
  | recycle n _ log => exact .inr (hone _ log nofun)

/-- The condition on a step: it is the reaper, or its events are all sound. -/
def Grpc.releasesHolds (s : Grpc) : Action → Bool
  | .reapBackend => true
  | a => Event.along Event.sound s.toCtx (s.events a)

theorem step_matched (h : s.step cfg a = some s') (hok : s.releasesHolds a) :
    ∃ new, s'.log = new ++ s.log ∧ Matched new := by
  rcases step_trace h with ht | hm
  · unfold Grpc.releasesHolds at hok
    split at hok
    · cases h
      exact reapIdleBackendChains_matched s.toCtx s.clock
    · exact ht.matched hok
  · exact hm

/-- A step of the server, with what each locked section has logged so far. -/
def Grpc.sectioned (cfg : Settings) (p : Grpc × List (List Effect)) (a : Action) :
    Option (Grpc × List (List Effect)) :=
  (p.1.step cfg a).map fun s' => (s', s'.log.take (s'.log.length - p.1.log.length) :: p.2)

/-- **One hold for each backend session.** In every run in which no event releases a trigger port that
has an edge and no session, each decrement for a trigger port is matched by a session of that port that
held its edge and is removed in the same section. -/
theorem backend_decrements_matched {p : Grpc × List (List Effect)}
    (h : Reach (Grpc.sectioned cfg) (fun p a => p.1.releasesHolds a) (Grpc.new, []) p) :
    ∀ log ∈ p.2, Matched log := by
  refine h.invariant (fun p => ∀ log ∈ p.2, Matched log) (by simp) fun p a p' hp hok hs => ?_
  obtain ⟨s', hs', rfl⟩ := Option.map_eq_some_iff.mp hs
  obtain ⟨new, hl, hm⟩ := step_matched hs' hok
  refine List.forall_mem_cons.mpr ⟨?_, hp⟩
  rwa [hl, List.length_append, Nat.add_sub_cancel, List.take_left]

namespace Script

/-- A shop whose sessions need the database, and which reaches it on a trigger port as well. -/
def store (port : ℕ) : ServiceConfig where
  proxyDeps := [["db"]]
  triggers := (∅ : Dict _ _).insert port "db"
  timeout := some 60
  maxNetworks := none

/-- The shop runs on host 1 and its database on host 2. -/
def opened : List Action :=
  [load [("shop", store 9000), ("db", bare)], report 1 ["shop"], report 2 ["db"]]

def visited : List Action :=
  opened ++ [.arrive (visitor "ann")] ++ go 0 7 ++ work 2 4 ++ work 3 4 ++ [.finish 1] ++ go 0 3

/-- The trigger port brings the edge up, and is idle since. -/
def triggered : List Action :=
  opened ++ [.trigger "shop" 9000 (host 1) none, .stepTrigger 0 true, .stepTrigger 0 true] ++
    work 2 4 ++ [.finish 1, .stepTrigger 0 true, .liveness "shop" 9000 (host 1) none false,
    .tick 30000]

def port : BackendKey := ⟨"shop", ⟨host 1, none⟩, 9000⟩

end Script

open Script in
/-- The reaper releases the hold of the idle port. -/
theorem backend_decrements_matched_reaped : ∃ p, Reach (Grpc.sectioned settings)
      (fun p a => p.1.releasesHolds a) (Grpc.new, []) p ∧
    (∃ log ∈ p.2, 0 < log.count (.triggerDecrement port)) ∧ ∀ log ∈ p.2, Matched log :=
  (exists_guarded (triggered ++ [.reapBackend]) (by decide +kernel)).imp fun _ h =>
    ⟨h.1, h.2, backend_decrements_matched h.1⟩

open Script in
/-- A visitor's session brought the edge up, and the port was never used; when the database gets another
port, the old one takes the count of the session. -/
theorem unmatched_decrement : ∃ s a s', Reach (Grpc.step settings) anyStep Grpc.new s ∧
    s.step settings a = some s' ∧ ∀ new, s'.log = new ++ s.log → ¬Matched new := by
  obtain ⟨s, hs, s', hs', hlt, h0⟩ : ∃ s, Reach (Grpc.step settings) anyStep Grpc.new s ∧
      ∃ s', s.step settings (load [("shop", store 9001), ("db", bare)]) = some s' ∧
        s.log.count (.triggerDecrement port) < s'.log.count (.triggerDecrement port) ∧
        s'.log.count (.sessionRemoved port false) = 0 :=
    exists_reach visited (by decide +kernel)
  refine ⟨s, _, s', hs, hs', fun new hl hm => ?_⟩
  have := hm port
  rw [hl, List.count_append] at hlt h0
  omega

end Nullnet.Server
