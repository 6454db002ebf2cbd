import Nullnet.Server.Grpc

/-! # What the sections that change services consist of

A section under the lock on the services calls `teardownChain` and `teardownBackendChain`; between the
calls it takes replicas and services away, changes their configuration, and changes backend sessions.
These are the `Event`s of the section, and `Trace drops ctx es ctx'` says that `es` are the events of a
section from `ctx` to `ctx'`.

Each event is a sequence of a few kinds of steps (`ChangeStep`), so an invariant of these steps is an
invariant of all sections (`Trace.steps`). -/

namespace Nullnet.Server

open Nullnet.Lib Relation

variable {ctx : Ctx}

def Effect.isNote : Effect → Bool
  | .allocate _ | .netTeardown _ | .recycle _ => false
  | _ => true

/-- The effect is about a row of the session history, or about a backend session. -/
def Effect.isRow : Effect → Bool
  | .openIngress _ _ _ _ _ _ _ | .closeIngress _ _ _ | .sessionRemoved _ _ => true
  | _ => false

theorem Effect.isNote_of_isRow {e : Effect} (h : e.isRow) : e.isNote := by
  cases e <;> first | rfl | cases h

/-- One step of a section; only a section that `drops` removes edges with their replica. -/
inductive ChangeStep (drops : Bool) (ctx : Ctx) : Ctx → Prop
  | release (k : ServiceKey) (c : Client) (h : c.isProxy = false) :
      ChangeStep drops ctx (ctx.decrementChain k c)
  | remove (k : ServiceKey) (torn : List Placed)
      (h : ∀ x ∈ torn, x.client.isProxy ∧ x.info.isPending = false ∧
        ctx.services.entry ⟨k, x.replica, x.client⟩ = some x.info) :
      ChangeStep drops ctx (ctx.removeProxyClients k torn)
  | shrink (m : StackMap) (hd : drops = true) (h : StackMap.Loses ctx.services m) :
      ChangeStep drops ctx { ctx with services := m }
  | session (sessions : BackendSessions) : ChangeStep drops ctx { ctx with sessions := sessions }
  | note (e : Effect) (h : e.isNote) : ChangeStep drops ctx (ctx.emit e)

abbrev ChangeSteps (drops : Bool) : Ctx → Ctx → Prop := ReflTransGen (ChangeStep drops)

theorem ChangeSteps.foldl {A : Type} {drops : Bool} {f : Ctx → A → Ctx}
    (h : ∀ ctx a, ChangeSteps drops ctx (f ctx a)) (l : List A) (ctx : Ctx) :
    ChangeSteps drops ctx (l.foldl f ctx) := by
  induction l generalizing ctx with
  | nil => exact .refl
  | cons a l ih => exact (h ctx a).trans (ih (f ctx a))

namespace Ctx

/-! ## Decrementing an edge -/

theorem decrementChain_cases (ctx : Ctx) (k : ServiceKey) (c : Client) :
    (ctx.decrementChain k c = ctx ∧ (ctx.services.registered k).any (·.holdsChain c) = false) ∨
    ∃ r ci, (ctx.services.registered k).bind (·.clientReplica c) = some r ∧
      ctx.services.entry ⟨k, r, c⟩ = some ci ∧ ci.isPending = false ∧
      (1 < ci.activeChains ∧ ctx.decrementChain k c =
          { ctx with services := ctx.services.modifyEntry ⟨k, r, c⟩ (.removeActiveChains 1) } ∨
        ci.activeChains ≤ 1 ∧ ctx.decrementChain k c =
          { ctx with
            services := ctx.services.eraseEntry ⟨k, r, c⟩
            log := .netTeardown (ci.teardown r) :: ctx.log }) := by
  rcases hr : ctx.services.registered k with - | reg
  · refine .inl ⟨?_, rfl⟩
    simp [decrementChain, hr, StackMap.update_eq_self]
  · have hup : ∀ f : Registered → Registered, (reg.decrementChain c).1 = f reg →
        (ctx.services.update k fun reg => (reg.decrementChain c).1) = ctx.services.update k f := by
      intro f hf
      refine StackMap.update_congr fun reg' h => ?_
      cases hr.symm.trans h
      exact hf
    rcases reg.decrementChain_cases c with ⟨he, hh⟩ | ⟨r, ci, hfirst, he, hp, hcase⟩
    · refine .inl ⟨?_, hh⟩
      have hid : ctx.services.update k id = ctx.services := StackMap.update_eq_self fun _ _ => rfl
      simp [decrementChain, hr, he, hup id (by rw [he]; rfl), hid]
    · refine .inr ⟨r, ci, hfirst, by rw [StackMap.entry, hr]; exact he, hp, ?_⟩
      rcases hcase with ⟨hn, hd⟩ | ⟨hn, hd⟩
      · refine .inl ⟨hn, ?_⟩
        simp [decrementChain, hr, hd, hup (·.modifyEntry r c (.removeActiveChains 1)) (by rw [hd]),
          StackMap.modifyEntry]
      · refine .inr ⟨hn, ?_⟩
        simp [decrementChain, hr, hd, hup (·.eraseEntry r c) (by rw [hd]), StackMap.eraseEntry]

variable {c : Client} {r : ReplicaId}

theorem entry_decrementChain_ne {k : ServiceKey} {x : Slot} (h : x.client ≠ c) :
    (ctx.decrementChain k c).services.entry x = ctx.services.entry x := by
  have hx : ∀ r, x ≠ ⟨k, r, c⟩ := by rintro r rfl; exact h rfl
  rcases ctx.decrementChain_cases k c with ⟨he, -⟩ | ⟨r, ci, -, -, -, ⟨-, he⟩ | ⟨-, he⟩⟩
  · rw [he]
  · rw [he]; simp [StackMap.entry_modifyEntry, hx r]
  · rw [he]; simp [StackMap.entry_eraseEntry, hx r]

theorem removeSession_steps (ctx : Ctx) (drops : Bool) (key : BackendKey) :
    ChangeSteps drops ctx (ctx.removeSession key) := by
  unfold removeSession
  rcases ctx.sessions.lookup key with - | session
  · exact .refl
  · exact (ReflTransGen.single (.session (ctx.sessions.erase key))).tail (.note _ rfl)

/-! ## Proxy chains -/

theorem isProxy_of_mem_walk {m : StackMap} {st name : String}
    {e : Client × String} (h : e ∈ m.collectDepChainEdges st name r) : e.1.isProxy = false := by
  have key : ∀ (deps : List String) (name : String) (r : ReplicaId),
      e ∈ m.walkBranch st name r deps → e.1.isProxy = false := by
    intro deps
    induction deps with
    | nil => intro name r he; simp [StackMap.walkBranch] at he
    | cons dep rest ih =>
      intro name r he
      rw [StackMap.walkBranch, List.mem_cons] at he
      rcases he with rfl | he
      · rfl
      · rcases hl : m.clientReplicaLive (st, dep) (.newService name r) with - | r'
        · simp [hl] at he
        · rw [hl] at he
          exact ih dep r' he
  unfold StackMap.collectDepChainEdges at h
  rcases hc : m.config (st, name) with - | config
  · simp [hc] at h
  · rw [hc] at h
    obtain ⟨deps, -, he⟩ := List.mem_flatMap.mp h
    exact key deps name r he

theorem decrementChains_steps (drops : Bool) (st : String) (edges : List (Client × String))
    (h : ∀ e ∈ edges, e.1.isProxy = false) (ctx : Ctx) :
    ChangeSteps drops ctx (edges.foldl (fun ctx e => ctx.decrementChain (st, e.2) e.1) ctx) ∧
    ∀ x : Slot, x.client.isProxy →
      (edges.foldl (fun ctx e => ctx.decrementChain (st, e.2) e.1) ctx).services.entry x =
        ctx.services.entry x := by
  induction edges generalizing ctx with
  | nil => exact ⟨.refl, fun _ _ => rfl⟩
  | cons e edges ih =>
    obtain ⟨he, h⟩ := List.forall_mem_cons.mp h
    obtain ⟨hs, hx⟩ := ih h (ctx.decrementChain (st, e.2) e.1)
    refine ⟨.head (.release _ _ he) hs, fun x hp => (hx x hp).trans ?_⟩
    refine entry_decrementChain_ne fun hc => ?_
    rw [hc, he] at hp
    cases hp

theorem teardownDepChain_steps (ctx : Ctx) (drops : Bool) (st name : String) (r : ReplicaId) :
    ChangeSteps drops ctx (ctx.teardownDepChain st name r) ∧ ∀ x : Slot, x.client.isProxy →
      (ctx.teardownDepChain st name r).services.entry x = ctx.services.entry x :=
  decrementChains_steps drops st _ (fun _ => isProxy_of_mem_walk) ctx

theorem teardownDepChains_steps (drops : Bool) (st name : String) (torn : List Placed) (ctx : Ctx) :
    ChangeSteps drops ctx
      (torn.foldl (fun ctx x => ctx.teardownDepChain st name x.replica) ctx) ∧
    ∀ x : Slot, x.client.isProxy →
      (torn.foldl (fun ctx x => ctx.teardownDepChain st name x.replica) ctx).services.entry x =
        ctx.services.entry x := by
  induction torn generalizing ctx with
  | nil => exact ⟨.refl, fun _ _ => rfl⟩
  | cons y torn ih =>
    obtain ⟨hs, hx⟩ := ctx.teardownDepChain_steps drops st name y.replica
    obtain ⟨hs', hx'⟩ := ih (ctx.teardownDepChain st name y.replica)
    exact ⟨hs.trans hs', fun x hp => (hx' x hp).trans (hx x hp)⟩

theorem isProxy_of_matches {f : ProxyFilter} (h : f.matches c r) :
    c.isProxy := by
  exact (Bool.and_eq_true_iff.mp h).1

theorem teardownChain_steps (ctx : Ctx) (drops : Bool) (st name : String) (filter : ProxyFilter) :
    ChangeSteps drops ctx (ctx.teardownChain st name filter) := by
  unfold teardownChain
  rcases hr : ctx.services.registered (st, name) with - | reg
  · exact .refl
  · set torn := reg.allClientsOwned.filter fun x => filter.matches x.client x.replica with ht
    obtain ⟨hs, hx⟩ := teardownDepChains_steps drops st name torn ctx
    refine hs.tail (.remove (st, name) torn fun x hm => ?_)
    obtain ⟨hm, hf⟩ := List.mem_filter.mp hm
    obtain ⟨hm, hp⟩ := List.mem_filter.mp hm
    have hproxy : x.client.isProxy := isProxy_of_matches hf
    refine ⟨hproxy, by simpa using hp, ?_⟩
    rw [hx _ hproxy, StackMap.entry_of_registered hr]
    exact Registered.entry_of_mem_placed hm

/-! ## Backend chains -/

theorem cancelBuilds_steps (ctx : Ctx) (drops : Bool) (name : String) (r : ReplicaId)
    (ports : List (Σ _ : ℕ, String)) : ChangeSteps drops ctx (ctx.cancelBuilds name r ports).2 := by
  induction ports generalizing ctx with
  | nil => exact .refl
  | cons e ports ih =>
    unfold cancelBuilds
    split_ifs
    · exact (ctx.removeSession_steps drops _).trans (ih _)
    · exact ih ctx

theorem releaseTrigger_steps (ctx : Ctx) (drops : Bool) (st name : String) (r : ReplicaId)
    (e : Σ _ : ℕ, String) : ChangeSteps drops ctx (ctx.releaseTrigger st name r e) := by
  unfold releaseTrigger
  dsimp only
  split_ifs
  · exact (ReflTransGen.single (.note _ rfl)).tail (.release _ _ rfl)
  · exact .single (.release _ _ rfl)

theorem teardownBackendChain_steps (ctx : Ctx) (drops : Bool) (st name : String) (r : ReplicaId)
    (onlyThrough : Option String) (onlyPort : Option ℕ) :
    ChangeSteps drops ctx (ctx.teardownBackendChain st name r onlyThrough onlyPort) := by
  have h1 := ctx.cancelBuilds_steps drops name r
    (ctx.services.matchingTriggers st name onlyThrough onlyPort)
  have h2 := ChangeSteps.foldl (fun ctx e => ctx.releaseTrigger_steps drops st name r e)
    (ctx.cancelBuilds name r (ctx.services.matchingTriggers st name onlyThrough onlyPort)).1
    (ctx.cancelBuilds name r (ctx.services.matchingTriggers st name onlyThrough onlyPort)).2
  exact (h1.trans h2).trans (ChangeSteps.foldl (fun ctx e => ctx.removeSession_steps drops _) _ _)

end Ctx

/-! ## Events and traces -/

/-- What a section does in one go. -/
inductive Event
  | chain (st name : String) (filter : ProxyFilter)
  | backend (st name : String) (r : ReplicaId) (onlyThrough : Option String)
      (onlyPort : Option ℕ)
  | services (m : StackMap)
  | sessions (m : BackendSessions)
  | removeSession (key : BackendKey)

namespace Event

def run (ctx : Ctx) : Event → Ctx
  | chain st name filter => ctx.teardownChain st name filter
  | backend st name r onlyThrough onlyPort =>
    ctx.teardownBackendChain st name r onlyThrough onlyPort
  | services m => { ctx with services := m }
  | sessions m => { ctx with sessions := m }
  | removeSession key => ctx.removeSession key

/-- Services only lose entries, and backend sessions change but for their claims; only a section
that `drops` touches the services. -/
def Legal (drops : Bool) (ctx : Ctx) : Event → Prop
  | services m => drops = true ∧ StackMap.Loses ctx.services m
  | sessions m => ∀ key, (m.lookup key).map BackendSession.claim =
      (ctx.sessions.lookup key).map BackendSession.claim
  | _ => True

/-- `p` holds of each event, in the state in which it happens. -/
def along (p : Ctx → Event → Bool) : Ctx → List Event → Bool
  | _, [] => true
  | ctx, e :: es => p ctx e && along p (e.run ctx) es

/-- The events of one part of a section and then of another. -/
def seq (f g : Ctx → List Event) (ctx : Ctx) : List Event := f ctx ++ g ((f ctx).foldl run ctx)

/-- The events of a loop, from the events of its body. -/
def gather {A : Type} (f : A → Ctx → List Event) : List A → Ctx → List Event
  | [], _ => []
  | a :: l, ctx => seq (f a) (gather f l) ctx

end Event

/-- The events of a section. -/
inductive Trace (drops : Bool) : Ctx → List Event → Ctx → Prop
  | nil (ctx : Ctx) : Trace drops ctx [] ctx
  | cons {ctx ctx' : Ctx} {e : Event} {es : List Event} (hl : e.Legal drops ctx)
      (h : Trace drops (e.run ctx) es ctx') : Trace drops ctx (e :: es) ctx'

namespace Trace

variable {ctx' ctx'' : Ctx} {drops : Bool} {es es' : List Event} {A : Type} {g : Ctx → A → Ctx}

theorem one {e : Event} (hl : e.Legal drops ctx) : Trace drops ctx [e] (e.run ctx) :=
  .cons hl (.nil _)

theorem chain (ctx : Ctx) (st name : String) (filter : ProxyFilter) :
    Trace drops ctx [.chain st name filter] (ctx.teardownChain st name filter) :=
  .cons trivial (.nil _)

theorem services {m : StackMap} (h : ctx.services.Loses m) :
    Trace true ctx [.services m] { ctx with services := m } :=
  .cons ⟨rfl, h⟩ (.nil _)

theorem append (h : Trace drops ctx es ctx') (h' : Trace drops ctx' es' ctx'') :
    Trace drops ctx (es ++ es') ctx'' := by
  induction h with
  | nil ctx => exact h'
  | cons hl _ ih => exact .cons hl (ih h')

theorem run_eq (h : Trace drops ctx es ctx') : es.foldl Event.run ctx = ctx' := by
  induction h with
  | nil ctx => rfl
  | cons _ _ ih => exact ih

theorem weaken (h : Trace false ctx es ctx') : Trace drops ctx es ctx' := by
  induction h with
  | nil ctx => exact .nil ctx
  | @cons _ _ e _ hl _ ih =>
    refine .cons ?_ ih
    cases e with
    | services m => cases hl.1
    | sessions m => exact hl
    | chain | backend | removeSession => trivial

theorem seq {f g : Ctx → List Event} (h : Trace drops ctx (f ctx) ctx')
    (h' : Trace drops ctx' (g ctx') ctx'') : Trace drops ctx (Event.seq f g ctx) ctx'' := by
  rw [Event.seq, h.run_eq]
  exact h.append h'

theorem gather {f : A → Ctx → List Event}
    (h : ∀ ctx a, Trace drops ctx (f a ctx) (g ctx a)) (l : List A) (ctx : Ctx) :
    Trace drops ctx (Event.gather f l ctx) (l.foldl g ctx) := by
  induction l generalizing ctx with
  | nil => exact .nil ctx
  | cons a l ih => exact seq (h ctx a) (ih (g ctx a))

theorem map {f : A → Event} (hg : ∀ ctx a, (f a).run ctx = g ctx a)
    (hl : ∀ ctx a, (f a).Legal drops ctx) (l : List A) (ctx : Ctx) :
    Trace drops ctx (l.map f) (l.foldl g ctx) := by
  induction l generalizing ctx with
  | nil => exact .nil ctx
  | cons a l ih =>
    refine .cons (hl ctx a) ?_
    rw [hg]
    exact ih (g ctx a)

theorem steps (h : Trace drops ctx es ctx') : ChangeSteps drops ctx ctx' := by
  induction h with
  | nil ctx => exact .refl
  | @cons ctx _ e _ hl _ ih =>
    cases e with
    | chain st name filter => exact (ctx.teardownChain_steps drops st name filter).trans ih
    | backend st name r onlyThrough onlyPort =>
      exact (ctx.teardownBackendChain_steps drops st name r onlyThrough onlyPort).trans ih
    | services m => exact .head (.shrink m hl.1 hl.2) ih
    | sessions m => exact .head (.session m) ih
    | removeSession key => exact (ctx.removeSession_steps drops key).trans ih

end Trace

end Nullnet.Server
