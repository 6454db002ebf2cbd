import Nullnet.Config.RoundTrip
import Nullnet.Config.Store

/-! # What the server starts from

Ports, routes and names are claimed by services, routes and stacks. At startup the stacks that claim
something that is also claimed elsewhere are dropped (`StackMaps.Contested`), wherever the detection comes
upon it first: of several stacks that claim the same, all are dropped. -/

namespace Nullnet.Config

open Nullnet.Lib Nullnet.Lib.Claims

/-! ## Who claims what -/

def ServiceDecl.listensOn (d : ServiceDecl) : Option (ServiceProtocol × UInt16) :=
  d.listenPort.map fun port => (d.protocol, port)

def Listens (services : Dict String (Dict String ServiceDecl)) (stack name : String)
    (key : ServiceProtocol × UInt16) : Prop :=
  ∃ s d, services.lookup stack = some s ∧ s.lookup name = some d ∧ d.listensOn = some key

/-- The route of a stack at a position has a host and a path. -/
def Routed (routes : Dict String (List RouteEntry)) (stack : String) (i : ℕ)
    (key : String × String) : Prop :=
  ∃ l r, routes.lookup stack = some l ∧ l[i]? = some r ∧ (r.host, r.path) = key

def Named (services : Dict String (Dict String ServiceDecl)) (stack name : String) : Prop :=
  ∃ s d, services.lookup stack = some s ∧ s.lookup name = some d

/-- Another claimant claims a port, a route or a name of the stack. -/
def StackMaps.Contested (m : StackMaps) (stack : String) : Prop :=
  (∃ key name stack' name', Listens m.services stack name key ∧ Listens m.services stack' name' key ∧
    (stack', name') ≠ (stack, name)) ∨
  (∃ key i stack' i', Routed m.routes stack i key ∧ Routed m.routes stack' i' key ∧
    (stack', i') ≠ (stack, i)) ∨
  ∃ name stack', Named m.services stack name ∧ Named m.services stack' name ∧ stack' ≠ stack

section

variable {services : Dict String (Dict String ServiceDecl)} {routes : Dict String (List RouteEntry)}
  {stack : String} {s : Dict String ServiceDecl} {m : StackMaps}

theorem mem_portClaims {key : ServiceProtocol × UInt16} :
    (∃ c ∈ portClaims s, c.1 = key) ↔ ∃ name d, s.lookup name = some d ∧ d.listensOn = some key := by
  simp only [portClaims, List.mem_filterMap, Option.map_eq_some_iff, ServiceDecl.listensOn]
  constructor
  · rintro ⟨_, ⟨⟨name, d⟩, hmem, port, hport, rfl⟩, rfl⟩
    exact ⟨name, d, Dict.lookup_eq_some.mpr hmem, port, hport, rfl⟩
  · rintro ⟨name, d, hd, port, hport, rfl⟩
    exact ⟨_, ⟨⟨name, d⟩, Dict.lookup_eq_some.mp hd, port, hport, rfl⟩, rfl⟩

theorem nodup_ports : ((portClaims s).map Prod.fst).Nodup ↔
    ∀ key name name' d d', s.lookup name = some d → s.lookup name' = some d' →
      d.listensOn = some key → d'.listensOn = some key → name' = name := by
  have hkeys : s.entries.Pairwise fun e e' => e.1 ≠ e'.1 := List.nodupKeys_iff_pairwise.mp s.nodupKeys
  have hports : (portClaims s).map Prod.fst = s.entries.filterMap fun e => e.2.listensOn := by
    rw [portClaims, List.map_filterMap]
    refine List.filterMap_congr fun e _ => ?_
    rw [Option.map_map]
    rfl
  rw [hports, List.Nodup, List.pairwise_filterMap]
  constructor
  · intro h key name name' d d' hd hd' hkey hkey'
    by_contra hne
    have hsymm : Std.Symm fun e e' : Σ _ : String, ServiceDecl =>
        ∀ b, e.2.listensOn = some b → ∀ b', e'.2.listensOn = some b' → b ≠ b' :=
      ⟨fun e e' h b hb b' hb' => (h b' hb' b hb).symm⟩
    refine h.forall (Dict.mem_of_lookup hd) (Dict.mem_of_lookup hd') (fun heq => hne ?_) key hkey key
      hkey' rfl
    exact (congrArg Sigma.fst heq).symm
  · intro h
    refine hkeys.imp_of_mem ?_
    rintro ⟨name, d⟩ ⟨name', d'⟩ hd hd' hne key hkey key' hkey' rfl
    exact hne (h key name name' d d' (Dict.lookup_eq_some.mpr hd) (Dict.lookup_eq_some.mpr hd') hkey
      hkey').symm

theorem apart_ports : Claims.Apart portClaims services stack ↔
    ∀ key name stack' name', Listens services stack name key → Listens services stack' name' key →
      (stack', name') = (stack, name) := by
  refine apart_iff (fun stack key => ?_) ?_
  · rw [mem_claimed]
    simp only [mem_portClaims, Listens]
    constructor
    · rintro ⟨s, hs, name, d, hd, hkey⟩
      exact ⟨name, s, d, hs, hd, hkey⟩
    · rintro ⟨name, s, d, hs, hd, hkey⟩
      exact ⟨s, hs, name, d, hd, hkey⟩
  · rw [claimed]
    cases hs : services.lookup stack with
    | none =>
      refine iff_of_true List.nodup_nil fun key name name' h => ?_
      obtain ⟨s, -, hs', -⟩ := h
      cases hs.symm.trans hs'
    | some s =>
      refine nodup_ports.trans ⟨fun h key name name' hl hl' => ?_, fun h key name name' d d' hd hd' hk hk' =>
        h key name name' ⟨s, d, hs, hd, hk⟩ ⟨s, d', hs, hd', hk'⟩⟩
      obtain ⟨s1, d, hs1, hd, hk⟩ := hl
      obtain ⟨s2, d', hs2, hd', hk'⟩ := hl'
      cases hs.symm.trans hs1
      cases hs.symm.trans hs2
      exact h key name name' d d' hd hd' hk hk'

theorem getElem?_routeClaims {l : List RouteEntry} {i : ℕ} {key : String × String} :
    ((routeClaims l).map Prod.fst)[i]? = some key ↔ ∃ r, l[i]? = some r ∧ (r.host, r.path) = key := by
  rw [routeClaims, List.map_map, List.getElem?_map, Option.map_eq_some_iff]
  rfl

theorem nodup_iff_position {A : Type} {l : List A} :
    l.Nodup ↔ ∀ (a : A) (i i' : ℕ), l[i]? = some a → l[i']? = some a → i' = i := by
  rw [List.nodup_iff_getElem?_ne_getElem?]
  constructor
  · intro h a i i' hi hi'
    have hlt := (List.getElem?_eq_some_iff.mp hi).1
    have hlt' := (List.getElem?_eq_some_iff.mp hi').1
    rcases Nat.lt_trichotomy i i' with hlt0 | heq | hlt0
    · exact absurd (hi.trans hi'.symm) (h i i' hlt0 hlt')
    · exact heq.symm
    · exact absurd (hi'.trans hi.symm) (h i' i hlt0 hlt)
  · intro h i j hij hj heq
    have hj' : l[j]? = some l[j] := List.getElem?_eq_getElem hj
    exact absurd (h _ i j (heq.trans hj') hj') (Nat.ne_of_gt hij)

theorem apart_routes : Claims.Apart routeClaims routes stack ↔
    ∀ key i stack' i', Routed routes stack i key → Routed routes stack' i' key →
      (stack', i') = (stack, i) := by
  have hclaimed : ∀ stack i key, (claimed routeClaims routes stack)[i]? = some key ↔
      Routed routes stack i key := by
    intro stack i key
    rw [claimed, Routed]
    cases hl : routes.lookup stack with
    | none => simp
    | some l =>
      rw [Option.elim_some, getElem?_routeClaims]
      simp
  refine apart_iff (fun stack key => ?_) ?_
  · rw [List.mem_iff_getElem?]
    exact exists_congr fun i => hclaimed stack i key
  · rw [nodup_iff_position]
    simp only [hclaimed]

theorem apart_names : Claims.Apart nameClaims services stack ↔
    ∀ name stack', Named services stack name → Named services stack' name → stack' = stack := by
  have hnames : ∀ s : Dict String ServiceDecl, (nameClaims s).map Prod.fst = s.keys := fun s => by
    rw [nameClaims, List.map_map]
    exact List.map_id _
  have hmem : ∀ stack name, name ∈ claimed nameClaims services stack ↔
      ∃ _ : Unit, Named services stack name := by
    intro stack name
    rw [claimed, Named]
    cases hs : services.lookup stack with
    | none => simp
    | some s =>
      rw [Option.elim_some, hnames, ← AList.mem_keys, ← AList.lookup_isSome, Option.isSome_iff_exists]
      simp
  have hself : (claimed nameClaims services stack).Nodup := by
    rw [claimed]
    cases services.lookup stack with
    | none => exact List.nodup_nil
    | some s =>
      rw [Option.elim_some, hnames]
      exact s.keys_nodup
  refine (apart_iff hmem (iff_of_true hself fun _ _ _ _ _ => rfl)).trans ?_
  constructor
  · exact fun h name stack' hn hn' => congrArg Prod.fst (h name () stack' () hn hn')
  · exact fun h name _ stack' _ hn hn' => Prod.ext (h name stack' hn hn') rfl

/-- **Contested stacks** are those that are not apart. -/
theorem contested_iff : m.Contested stack ↔ ¬m.Apart stack := by
  have hapart : m.Apart stack ↔ Claims.Apart portClaims m.services stack ∧
      Claims.Apart routeClaims m.routes stack ∧ Claims.Apart nameClaims m.services stack :=
    ⟨fun h => ⟨h.ports, h.routes, h.names⟩, fun ⟨hp, hr, hn⟩ => ⟨hp, hr, hn⟩⟩
  rw [hapart, apart_ports, apart_routes, apart_names, StackMaps.Contested]
  simp only [not_and_or, not_forall, exists_prop, ne_eq]

theorem mem_parties : stack ∈ m.parties ↔ m.Contested stack := by
  have hparty : ∀ {K X V : Type} [DecidableEq K] {f : V → List (K × X)} {d : Dict String V}
      {l : List (K × (String × X))}, l.Perm (claims f d) →
      (stack ∈ (detect l).flatMap (fun c => [c.first.1, c.second.1]) ↔ ¬Claims.Apart f d stack) := by
    intro K X V _ f d l hl
    have h := detect_apart (fun g => g = stack) hl
    simp only [forall_eq] at h
    rw [← h]
    simp only [List.mem_flatMap, List.mem_cons, List.not_mem_nil, or_false, not_forall, exists_prop,
      not_and_or, not_not]
    exact exists_congr fun c => and_congr_right fun _ => or_congr eq_comm eq_comm
  rw [contested_iff, StackMaps.parties, List.mem_append, List.mem_append, detectPortConflicts,
    detectRouteConflicts, detectNameConflicts, hparty (.refl _), hparty (.refl _),
    hparty (sortedNames_perm _), ← not_and_or, ← not_and_or]
  exact not_congr ⟨fun ⟨⟨hp, hr⟩, hn⟩ => ⟨hp, hr, hn⟩, fun h => ⟨⟨h.ports, h.routes⟩, h.names⟩⟩

theorem lookup_foldl_remove (stack : String) : ∀ (l : List String) (m : StackMaps),
    (l.foldl StackMaps.remove m).services.lookup stack =
      (if stack ∈ l then none else m.services.lookup stack) ∧
    (l.foldl StackMaps.remove m).routes.lookup stack =
      if stack ∈ l then none else m.routes.lookup stack
  | [], _ => ⟨rfl, rfl⟩
  | other :: l, m => by
    obtain ⟨hs, hr⟩ := lookup_foldl_remove stack l (m.remove other)
    rw [List.foldl_cons, hs, hr]
    simp only [StackMaps.remove, Dict.lookup_erase, List.mem_cons]
    by_cases hl : stack ∈ l
    · simp [hl]
    · by_cases ho : stack = other
      · simp [ho]
      · simp [hl, ho]

theorem lookup_keep (m : StackMaps) (stack : String) :
    m.keep.services.lookup stack = (if stack ∈ m.parties then none else m.services.lookup stack) ∧
    m.keep.routes.lookup stack = if stack ∈ m.parties then none else m.routes.lookup stack :=
  lookup_foldl_remove stack m.parties m

end

/-! ## Startup -/

structure StackMaps.Isolated (m : StackMaps) : Prop where
  ports : ∀ key stack name stack' name', Listens m.services stack name key →
    Listens m.services stack' name' key → (stack', name') = (stack, name)
  routes : ∀ key stack i stack' i', Routed m.routes stack i key → Routed m.routes stack' i' key →
    (stack', i') = (stack, i)
  names : ∀ name stack stack', Named m.services stack name → Named m.services stack' name →
    stack' = stack

/-- The same maps, iterated in another order. -/
structure StackMaps.Reordered (m m' : StackMaps) : Prop where
  services : ∀ stack name, (m.services.lookup stack).bind (·.lookup name) =
    (m'.services.lookup stack).bind (·.lookup name)
  present : ∀ stack, (m.services.lookup stack).isSome = (m'.services.lookup stack).isSome
  routes : ∀ stack, m.routes.lookup stack = m'.routes.lookup stack

section

variable {m m' : StackMaps} {stack : String}

/-- What is claimed after the startup was claimed before, by a stack that is not contested. -/
theorem not_contested_of_keep (h : m.keep.services.lookup stack ≠ none ∨
    m.keep.routes.lookup stack ≠ none) : ¬m.Contested stack := by
  intro hc
  have hmem := mem_parties.mpr hc
  rcases h with h | h
  · exact h ((lookup_keep m stack).1.trans (if_pos hmem))
  · exact h ((lookup_keep m stack).2.trans (if_pos hmem))

theorem lookup_of_keep (h : ¬m.Contested stack) :
    m.keep.services.lookup stack = m.services.lookup stack ∧
      m.keep.routes.lookup stack = m.routes.lookup stack := by
  obtain ⟨hs, hr⟩ := lookup_keep m stack
  have hmem : stack ∉ m.parties := fun hp => h (mem_parties.mp hp)
  rw [if_neg hmem] at hs hr
  exact ⟨hs, hr⟩

theorem isolated_keep (m : StackMaps) : m.keep.Isolated := by
  have hlistens : ∀ {stack name key}, Listens m.keep.services stack name key →
      ¬m.Contested stack ∧ Listens m.services stack name key := by
    rintro stack name key ⟨s, d, hs, hd, hk⟩
    have hc : ¬m.Contested stack := not_contested_of_keep (.inl (by rw [hs]; exact Option.some_ne_none s))
    exact ⟨hc, s, d, (lookup_of_keep hc).1.symm.trans hs, hd, hk⟩
  have hrouted : ∀ {stack i key}, Routed m.keep.routes stack i key →
      ¬m.Contested stack ∧ Routed m.routes stack i key := by
    rintro stack i key ⟨l, r, hl, hr, hk⟩
    have hc : ¬m.Contested stack := not_contested_of_keep (.inr (by rw [hl]; exact Option.some_ne_none l))
    exact ⟨hc, l, r, (lookup_of_keep hc).2.symm.trans hl, hr, hk⟩
  have hnamed : ∀ {stack name}, Named m.keep.services stack name →
      ¬m.Contested stack ∧ Named m.services stack name := by
    rintro stack name ⟨s, d, hs, hd⟩
    have hc : ¬m.Contested stack := not_contested_of_keep (.inl (by rw [hs]; exact Option.some_ne_none s))
    exact ⟨hc, s, d, (lookup_of_keep hc).1.symm.trans hs, hd⟩
  refine ⟨fun key stack name stack' name' h h' => ?_, fun key stack i stack' i' h h' => ?_,
    fun name stack stack' h h' => ?_⟩
  · by_contra hne
    exact (hlistens h).1 (.inl ⟨key, name, stack', name', (hlistens h).2, (hlistens h').2, hne⟩)
  · by_contra hne
    exact (hrouted h).1 (.inr (.inl ⟨key, i, stack', i', (hrouted h).2, (hrouted h').2, hne⟩))
  · by_contra hne
    exact (hnamed h).1 (.inr (.inr ⟨name, stack', (hnamed h).2, (hnamed h').2, hne⟩))

theorem StackMaps.Reordered.contested (h : m.Reordered m') (stack : String) :
    m.Contested stack ↔ m'.Contested stack := by
  have hlistens : ∀ stack name key, Listens m.services stack name key ↔
      Listens m'.services stack name key := by
    intro stack name key
    have hbind : ∀ services : Dict String (Dict String ServiceDecl), Listens services stack name key ↔
        ∃ d, (services.lookup stack).bind (·.lookup name) = some d ∧ d.listensOn = some key := by
      intro services
      simp only [Listens, Option.bind_eq_some_iff]
      constructor
      · rintro ⟨s, d, hs, hd, hk⟩
        exact ⟨d, ⟨s, hs, hd⟩, hk⟩
      · rintro ⟨d, ⟨s, hs, hd⟩, hk⟩
        exact ⟨s, d, hs, hd, hk⟩
    rw [hbind, hbind, h.services]
  have hnamed : ∀ stack name, Named m.services stack name ↔ Named m'.services stack name := by
    intro stack name
    have hbind : ∀ services : Dict String (Dict String ServiceDecl), Named services stack name ↔
        ∃ d, (services.lookup stack).bind (·.lookup name) = some d := by
      intro services
      simp only [Named, Option.bind_eq_some_iff]
      exact exists_comm
    rw [hbind, hbind, h.services]
  simp only [StackMaps.Contested, hlistens, hnamed, Routed, h.routes]

theorem isSome_keep (stack : String) : (m.keep.services.lookup stack).isSome = true ↔
    (m.services.lookup stack).isSome = true ∧ ¬m.Contested stack := by
  rw [(lookup_keep m stack).1, ← mem_parties]
  by_cases hp : stack ∈ m.parties
  · simp [hp]
  · simp [hp]

end

/-- **Conflicts at startup**: for every stored configuration that can be loaded, the stacks that the server
starts with are isolated; a stack that was loaded is dropped exactly if it is contested; and which stacks
are kept does not depend on the order of the maps. -/
theorem startup_isolated {F C : Type} (p : Parsers) (J : Json F C) (o : Order) (tables : Tables F C)
    {m : StackMaps} (h : load p J o tables = .ok m) : ∃ kept, loadValidated p J o tables = .ok kept ∧
    kept.Isolated ∧
    (∀ stack, (m.services.lookup stack).isSome = true →
      ((kept.services.lookup stack).isSome = false ↔ m.Contested stack)) ∧
    (∀ stack s, kept.services.lookup stack = some s → m.services.lookup stack = some s) ∧
    ∀ m', m.Reordered m' → ∀ stack,
      (m'.keep.services.lookup stack).isSome = (kept.services.lookup stack).isSome := by
  refine ⟨m.keep, by rw [loadValidated, h]; rfl, isolated_keep m, fun stack hs => ?_, fun stack s hs => ?_,
    fun m' hm stack => ?_⟩
  · rw [← Bool.not_eq_true, isSome_keep, and_iff_right hs, not_not]
  · have hc : ¬m.Contested stack := not_contested_of_keep (.inl (by rw [hs]; exact Option.some_ne_none s))
    exact (lookup_of_keep hc).1.symm.trans hs
  · rw [Bool.eq_iff_iff, isSome_keep, isSome_keep, ← hm.contested, ← hm.present]

/-- The rows of a stack with one service, which has no backends. -/
def oneService (s : ServiceToml) (h : s.backends = []) : StackRows FilterPolicy (List String) where
  services := [serviceToInsert Json.plain s]
  routes := []
  observations := []
  unique := by
    refine ⟨List.nodup_singleton _, fun i hi => ?_, List.nodup_nil, Nat.zero_le 1⟩
    have hnil : i.backends = [] := by rw [List.mem_singleton.mp hi, serviceToInsert, h]
    rw [hnil]
    exact List.nodup_nil

/-- Two stacks with services that mention the same dependencies, and one without dependencies. -/
def threeStacks : Tables FilterPolicy (List String) :=
  ((AList.insert "east" (oneService (webService "shop" 60) rfl) ∅).insert "west"
    (oneService (webService "blog" 60) rfl)).insert "solo"
    (oneService { webService "solo" 60 with proxyDependencies := [] } rfl)

/-- The two stacks are dropped. -/
theorem startup_isolated_three : ∃ m kept, load .plain Json.plain .stored threeStacks = .ok m ∧
    m.services.keys.length = 3 ∧ loadValidated .plain Json.plain .stored threeStacks = .ok kept ∧
    kept.services.keys = ["solo"] ∧ kept.Isolated := by
  obtain ⟨m, hm, hlength, hkeys⟩ : ∃ m ∈ (load .plain Json.plain .stored threeStacks).toOption,
      m.services.keys.length = 3 ∧ m.keep.services.keys = ["solo"] := by decide +kernel
  have hload : load .plain Json.plain .stored threeStacks = .ok m := by
    cases hl : load .plain Json.plain .stored threeStacks with
    | error message =>
      rw [hl] at hm
      exact nomatch hm
    | ok m' =>
      rw [hl] at hm
      exact congrArg _ (Option.some.inj hm)
  obtain ⟨kept, hkept, hisolated, -⟩ := startup_isolated .plain Json.plain .stored threeStacks hload
  have heq : kept = m.keep := by
    rw [loadValidated, hload] at hkept
    exact (Except.ok.inj hkept).symm
  exact ⟨m, kept, hload, hlength, hkept, heq ▸ hkeys, hisolated⟩

end Nullnet.Config
