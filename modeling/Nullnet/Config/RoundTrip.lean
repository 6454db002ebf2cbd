import Mathlib.Data.UInt
import Nullnet.Config.Rows
import Nullnet.Config.Validation

/-! # Services and routes come back from their rows

Reading the rows back groups the backends and the branches by service. What is read is the service as
far as its columns are wide enough, with its backends in any order and its branches by index. The
services come back if and only if they fit (`ServiceToml.storable`); the routes always do. -/

namespace Nullnet.Config

open Nullnet.Lib

/-! ## Groups -/

section

variable {A B : Type} {key : A → ℕ} {val : A → B}

theorem lookup_groupRows (rows : List A) (id : ℕ) :
    ((groupRows key val rows).lookup id).getD [] = (rows.filter fun a => key a = id).map val := by
  have key : ∀ m : Dict ℕ (List B), ((rows.foldl (fun m a =>
      m.insert (key a) ((m.lookup (key a)).getD [] ++ [val a])) m).lookup id).getD [] =
        (m.lookup id).getD [] ++ (rows.filter fun a => key a = id).map val := by
    induction rows with
    | nil => exact fun m => (List.append_nil _).symm
    | cons a rows ih =>
      intro m
      rw [List.foldl_cons, ih, Dict.lookup_insert]
      by_cases h : key a = id
      · subst h
        simp
      · rw [if_neg (Ne.symm h)]
        simp [h]
  exact key ∅

theorem filter_flatMap {D : Type} {f : D × ℕ → List A} {l : List (D × ℕ)} {x : D × ℕ}
    (hl : (l.map Prod.snd).Nodup) (hx : x ∈ l) (hf : ∀ y ∈ l, ∀ a ∈ f y, key a = y.2) :
    (l.flatMap f).filter (fun a => key a = x.2) = f x := by
  induction l with
  | nil => cases hx
  | cons y l ih =>
    rw [List.map_cons, List.nodup_cons] at hl
    have hfl := fun z hz => hf z (List.mem_cons_of_mem y hz)
    rw [List.flatMap_cons, List.filter_append]
    rcases List.mem_cons.mp hx with rfl | hx
    · have hall : (f x).filter (fun a => key a = x.2) = f x :=
        List.filter_eq_self.mpr fun a ha => decide_eq_true (hf x List.mem_cons_self a ha)
      have hnone : (l.flatMap f).filter (fun a => key a = x.2) = [] := by
        refine List.filter_eq_nil_iff.mpr fun a ha he => hl.1 ?_
        obtain ⟨z, hz, ha⟩ := List.mem_flatMap.mp ha
        rw [← of_decide_eq_true he, hfl z hz a ha]
        exact List.mem_map_of_mem hz
      rw [hall, hnone, List.append_nil]
    · have hnone : (f y).filter (fun a => key a = x.2) = [] := by
        refine List.filter_eq_nil_iff.mpr fun a ha he => hl.1 ?_
        rw [← hf y List.mem_cons_self a ha, of_decide_eq_true he]
        exact List.mem_map_of_mem hx
      rw [hnone, List.nil_append, ih hl.2 hx hfl]

end

/-! ## Services -/

/-- The same service, up to the order of its backends. -/
def ServiceToml.Same (s t : ServiceToml) : Prop :=
  s = { t with backends := s.backends } ∧ s.backends.Perm t.backends

/-- The same services, in any order. -/
def SameServices (l l' : List ServiceToml) : Prop :=
  ∃ l'', l''.Perm l' ∧ List.Forall₂ ServiceToml.Same l l''

/-- A service fits its rows: the timeout and the limit have columns that are wide enough, and no two
branches that differ share an index. -/
def ServiceToml.storable (s : ServiceToml) : Prop :=
  (∀ t ∈ s.timeout, t.toNat < 2 ^ 63) ∧ (∀ m ∈ s.maxNetworks, m.toNat < 2 ^ 31) ∧
    ∀ a ∈ s.proxyDependencies.drop (2 ^ 31 - 1), ∀ b ∈ s.proxyDependencies.drop (2 ^ 31 - 1), a = b

section

variable {F C : Type} (J : Json F C)

/-- What is left of a service in its row. -/
def ServiceToml.narrowed (s : ServiceToml) : ServiceToml :=
  { s with
    timeout := s.timeout.filter fun t => t.toNat < 2 ^ 63
    maxNetworks := s.maxNetworks.filter fun m => m.toNat < 2 ^ 31 }

theorem toToml_serviceToInsert (s : ServiceToml) (backends : List String) (chains : List C) :
    (serviceToInsert J s).toServiceColumns.toToml J backends chains = { s.narrowed with
        backends := backends
        proxyDependencies := chains.map fun chain => (J.decodeChain chain).getD [] } := by
  have hport : ∀ p : Option UInt16, (p.map fun p => (p.toNat : ℤ)).bind tryU16 = p := by
    rintro (- | p)
    · rfl
    · rw [Option.map_some, Option.bind_some, tryU16_toNat]
  have htimeout : (s.timeout.bind fun t => tryI64 t.toNat).bind tryU64 =
      s.timeout.filter fun t => t.toNat < 2 ^ 63 := by
    rcases s.timeout with - | t
    · rfl
    · simp [bind_tryU64, Option.filter]
  have hmax : (s.maxNetworks.bind fun m => tryI32 m.toNat).bind tryU32 =
      s.maxNetworks.filter fun m => m.toNat < 2 ^ 31 := by
    rcases s.maxNetworks with - | m
    · rfl
    · simp [bind_tryU32, Option.filter]
  have hprotocol : (s.protocol.map ServiceProtocol.text).map protocolOfText = s.protocol := by
    rcases s.protocol with - | p
    · rfl
    · exact congrArg some (protocolOfText_text p)
  simp only [ServiceColumns.toToml, serviceToInsert, ServiceToml.narrowed, hport, htimeout, hmax,
    hprotocol, decode_encodeFilter]

theorem decode_encodeChains (chains : List (List String)) :
    ((chains.map J.encodeChain).map fun chain => (J.decodeChain chain).getD []) = chains := by
  rw [List.map_map]
  conv_rhs => rw [← List.map_id chains]
  refine List.map_congr_left fun chain _ => ?_
  rw [Function.comp_apply, J.chain_roundTrip]
  rfl

variable {J} {services : List ServiceToml} {inserts : List (ServiceInsert F C)} {nextId : ℕ}
  {answer : ServiceRows F C} {id : ℕ} {s : ServiceToml} {chains : List C}

theorem nodup_zipIdx {A : Type} (l : List A) (nextId : ℕ) :
    ((l.zipIdx nextId).map Prod.snd).Nodup := by
  rw [List.zipIdx_map_snd]
  exact List.nodup_range'

/-- What the answer has of one service: its backends in any order, and its branches by index. -/
theorem answer_groups (h : Answer (storeServices nextId inserts) answer) {x : ServiceInsert F C × ℕ}
    (hx : x ∈ inserts.zipIdx nextId) :
    (((groupRows (·.serviceId) (·.peer) answer.triggers).lookup x.2).getD []).Perm x.1.backends ∧
    ∃ rows : List (ServiceDependencyRow C),
      ((groupRows (·.serviceId) (·.chain) answer.dependencies).lookup x.2).getD [] =
        rows.map (·.chain) ∧ rows.Perm (dependencyRows x.2 x.1.dependencies) ∧
      rows.Pairwise fun a b => a.branchIndex ≤ b.branchIndex := by
  constructor
  · rw [lookup_groupRows]
    refine ((h.triggers.filter _).map _).trans ?_
    rw [storeServices, filter_flatMap (nodup_zipIdx inserts nextId) hx, List.map_map]
    · exact (List.map_id x.1.backends).symm ▸ List.Perm.refl _
    · intro y _ a ha
      obtain ⟨peer, -, rfl⟩ := List.mem_map.mp ha
      rfl
  · refine ⟨answer.dependencies.filter fun a => a.serviceId = x.2, lookup_groupRows _ _, ?_, ?_⟩
    · refine (h.dependencies.filter _).trans ?_
      rw [storeServices, filter_flatMap (nodup_zipIdx inserts nextId) hx]
      intro y _ a ha
      obtain ⟨z, -, rfl⟩ := List.mem_map.mp ha
      rfl
    · refine (h.ordered.filter _).imp_of_mem fun ha hb hab => ?_
      have ha := of_decide_eq_true (List.mem_filter.mp ha).2
      have hb := of_decide_eq_true (List.mem_filter.mp hb).2
      rcases hab with hlt | ⟨-, hle⟩
      · omega
      · exact hle

theorem storeServices_servicesToInserts : storeServices nextId (servicesToInserts J services) =
      ⟨(services.zipIdx nextId).map fun x => ⟨(serviceToInsert J x.1).toServiceColumns, x.2⟩,
        (services.zipIdx nextId).flatMap fun x => x.1.backends.map fun peer => ⟨x.2, peer⟩,
        (services.zipIdx nextId).flatMap fun x =>
          dependencyRows x.2 (x.1.proxyDependencies.map J.encodeChain)⟩ := by
  unfold storeServices servicesToInserts
  simp only [List.zipIdx_map, List.map_map, List.flatMap_map]
  rfl

/-! ## The order of branches -/

theorem branchIndex_mono {i j : ℕ} (h : i ≤ j) : branchIndex i ≤ branchIndex j := by
  unfold branchIndex
  omega

theorem dependencyRows_ordered (id : ℕ) (chains : List C) :
    (dependencyRows id chains).Pairwise fun a b => a.branchIndex ≤ b.branchIndex := by
  have hidx : (chains.zipIdx.map Prod.snd).Pairwise (· < ·) := by
    rw [List.zipIdx_map_snd]
    exact List.pairwise_lt_range'
  exact List.pairwise_map.mpr
    ((List.pairwise_map.mp hidx).imp fun h => branchIndex_mono (Nat.le_of_lt h))

theorem chain_dependencyRows (id : ℕ) (chains : List C) :
    (dependencyRows id chains).map (·.chain) = chains := by
  rw [dependencyRows, List.map_map]
  exact List.zipIdx_map_fst 0 chains

/-- Two branches with the same index are the same one, or are both beyond the last index. -/
theorem eq_of_branchIndex
    (htail : ∀ a ∈ chains.drop (2 ^ 31 - 1), ∀ b ∈ chains.drop (2 ^ 31 - 1), a = b)
    {a b : ServiceDependencyRow C} (ha : a ∈ dependencyRows id chains)
    (hb : b ∈ dependencyRows id chains) (h : a.branchIndex = b.branchIndex) : a = b := by
  obtain ⟨⟨c, i⟩, hi, rfl⟩ := List.mem_map.mp ha
  obtain ⟨⟨c', j⟩, hj, rfl⟩ := List.mem_map.mp hb
  have hi := List.mem_zipIdx_iff_getElem?.mp hi
  have hj := List.mem_zipIdx_iff_getElem?.mp hj
  have hchain : c = c' := by
    rcases Nat.lt_or_ge i (2 ^ 31 - 1) with hlt | hge
    · obtain rfl : i = j := by
        dsimp only [branchIndex] at h
        omega
      rw [hi] at hj
      exact Option.some.inj hj
    · have hge' : 2 ^ 31 - 1 ≤ j := by
        dsimp only [branchIndex] at h
        omega
      have hmem : ∀ {c : C} {i : ℕ}, chains[i]? = some c → 2 ^ 31 - 1 ≤ i →
          c ∈ chains.drop (2 ^ 31 - 1) := by
        intro c i hi hge
        refine List.mem_of_getElem? (i := i - (2 ^ 31 - 1)) ?_
        rw [List.getElem?_drop, Nat.add_sub_cancel' hge, hi]
      exact htail c (hmem hi hge) c' (hmem hj hge')
  rw [hchain]
  dsimp only at h ⊢
  rw [h]

theorem chains_eq {rows : List (ServiceDependencyRow C)}
    (htail : ∀ a ∈ chains.drop (2 ^ 31 - 1), ∀ b ∈ chains.drop (2 ^ 31 - 1), a = b)
    (hperm : rows.Perm (dependencyRows id chains))
    (hord : rows.Pairwise fun a b => a.branchIndex ≤ b.branchIndex) :
    rows.map (·.chain) = chains := by
  have heq : rows = dependencyRows id chains := by
    refine List.Perm.eq_of_pairwise (fun a b ha hb hab hba => ?_) hord
      (dependencyRows_ordered id chains) hperm
    exact eq_of_branchIndex htail (hperm.mem_iff.mp ha) hb (le_antisymm hab hba)
  rw [heq, chain_dependencyRows]

theorem dependencyRows_perm {l t t' : List C} (hl : l.length = 2 ^ 31 - 1)
    (h : t'.Perm t) : (dependencyRows id (l ++ t')).Perm (dependencyRows id (l ++ t)) := by
  have hsplit : ∀ t : List C, dependencyRows id (l ++ t) =
      dependencyRows id l ++ t.map fun c => ⟨id, 2 ^ 31 - 1, c⟩ := by
    intro t
    unfold dependencyRows
    rw [List.zipIdx_append, List.map_append]
    congr 1
    have hfst : (t.zipIdx (0 + l.length)).map Prod.fst = t := List.zipIdx_map_fst _ t
    conv_rhs => rw [← hfst, List.map_map]
    refine List.map_congr_left fun x hx => ?_
    have hle := (List.mem_zipIdx hx).1
    have hidx : branchIndex x.2 = 2 ^ 31 - 1 := by
      unfold branchIndex
      omega
    rw [hidx]
    rfl
  rw [hsplit, hsplit]
  exact (h.map _).append_left _

/-! ## Services that fit -/

theorem narrowed_of_storable (h : s.storable) : s.narrowed = s := by
  have hfilter : ∀ {A : Type} {o : Option A} {q : A → Bool}, (∀ a ∈ o, q a) → o.filter q = o := by
    rintro A (- | a) q h
    · rfl
    · rw [Option.filter_some, if_pos (h a rfl)]
  rw [ServiceToml.narrowed, hfilter fun t ht => decide_eq_true (h.1 t ht),
    hfilter fun m hm => decide_eq_true (h.2.1 m hm)]

theorem sameServices_of_storable (hfit : ∀ s ∈ services, s.storable)
    (h : Answer (storeServices nextId (servicesToInserts J services)) answer) :
    SameServices (servicesFromRows J answer.services answer.triggers answer.dependencies) services := by
  have hservices := h.services
  rw [storeServices_servicesToInserts] at hservices
  -- the services of the answer are those of some list `l` of services with their ids
  obtain ⟨l, hanswer, hl⟩ := (congrFun (congrFun (List.eq_map_comp_perm _) _) _).mpr hservices
  refine ⟨l.map Prod.fst, ?_, ?_⟩
  · have hfst := List.zipIdx_map_fst nextId services
    exact hfst ▸ hl.map Prod.fst
  · unfold servicesFromRows
    rw [hanswer, List.map_map, List.forall₂_map_left_iff, List.forall₂_map_right_iff,
      List.forall₂_same]
    intro x hx
    have hx : x ∈ services.zipIdx nextId := hl.mem_iff.mp hx
    have hs := hfit x.1 (List.fst_mem_of_mem_zipIdx hx)
    have hinsert : (serviceToInsert J x.1, x.2) ∈ (servicesToInserts J services).zipIdx nextId := by
      rw [servicesToInserts, List.zipIdx_map]
      exact List.mem_map_of_mem (f := Prod.map (serviceToInsert J) id) hx
    obtain ⟨hbackends, rows, hrows, hperm, hord⟩ := answer_groups h hinsert
    have htail : ∀ a ∈ (x.1.proxyDependencies.map J.encodeChain).drop (2 ^ 31 - 1),
        ∀ b ∈ (x.1.proxyDependencies.map J.encodeChain).drop (2 ^ 31 - 1), a = b := by
      rw [← List.map_drop]
      intro a ha b hb
      obtain ⟨c, hc, rfl⟩ := List.mem_map.mp ha
      obtain ⟨c', hc', rfl⟩ := List.mem_map.mp hb
      rw [hs.2.2 c hc c' hc']
    rw [Function.comp_apply, toToml_serviceToInsert, narrowed_of_storable hs, hrows,
      chains_eq htail hperm hord, decode_encodeChains]
    exact ⟨rfl, hbackends⟩

/-! ## Services that do not fit -/

theorem answer_chains {g : ServiceToml × ℕ → List (List String)}
    (hg : ∀ x ∈ services.zipIdx nextId, (dependencyRows x.2 ((g x).map J.encodeChain)).Perm
      (dependencyRows x.2 (x.1.proxyDependencies.map J.encodeChain))) :
    ∃ answer, Answer (storeServices nextId (servicesToInserts J services)) answer ∧
      ∀ x ∈ services.zipIdx nextId, { x.1.narrowed with proxyDependencies := g x } ∈
        servicesFromRows J answer.services answer.triggers answer.dependencies := by
  rw [storeServices_servicesToInserts]
  refine ⟨⟨_, _, (services.zipIdx nextId).flatMap fun x =>
    dependencyRows x.2 ((g x).map J.encodeChain)⟩, ⟨.refl _, .refl _, .flatMap_left _ hg, ?_⟩, ?_⟩
  · have hidx : (services.zipIdx nextId).Pairwise fun x y => x.2 < y.2 := by
      refine List.pairwise_map.mp ?_
      rw [List.zipIdx_map_snd]
      exact List.pairwise_lt_range'
    refine List.pairwise_flatMap.mpr ⟨fun x _ => ?_, hidx.imp fun hlt a ha b hb => ?_⟩
    · refine (dependencyRows_ordered x.2 _).imp_of_mem fun ha hb hab => Or.inr ⟨?_, hab⟩
      obtain ⟨-, -, rfl⟩ := List.mem_map.mp ha
      obtain ⟨-, -, rfl⟩ := List.mem_map.mp hb
      rfl
    · obtain ⟨-, -, rfl⟩ := List.mem_map.mp ha
      obtain ⟨-, -, rfl⟩ := List.mem_map.mp hb
      exact Or.inl hlt
  · intro x hx
    refine List.mem_map.mpr ⟨⟨(serviceToInsert J x.1).toServiceColumns, x.2⟩,
      List.mem_map_of_mem hx, ?_⟩
    have hpeers : (x.1.backends.map fun peer => (⟨x.2, peer⟩ : ServiceTriggerRow)).map (·.peer) =
        x.1.backends := by
      rw [List.map_map]
      exact List.map_id x.1.backends
    rw [toToml_serviceToInsert, lookup_groupRows, lookup_groupRows,
      filter_flatMap (nodup_zipIdx services nextId) hx,
      filter_flatMap (nodup_zipIdx services nextId) hx, hpeers, chain_dependencyRows,
      decode_encodeChains]
    · rfl
    all_goals
      intro y _ a ha
      obtain ⟨-, -, rfl⟩ := List.mem_map.mp ha
      rfl

theorem eq_of_sameServices {l : List ServiceToml} (hnames : (services.map (·.name)).Nodup)
    (h : SameServices l services) {r : ServiceToml} (hr : r ∈ l) (hs : s ∈ services)
    (hname : r.name = s.name) : r = { s with backends := r.backends } := by
  obtain ⟨l', hperm, hall⟩ := h
  obtain ⟨t, ht, hsame⟩ := Checks.exists_of_mem_left hall hr
  have hst : t.name = s.name := (congrArg ServiceToml.name hsame.1).symm.trans hname
  obtain rfl := List.inj_on_of_nodup_map hnames (hperm.mem_iff.mp ht) hs hst
  exact hsame.1

/-- **Services fit if they come back** whatever the database answers. -/
theorem storable_of_sameServices (hnames : (services.map (·.name)).Nodup)
    (h : ∀ answer, Answer (storeServices nextId (servicesToInserts J services)) answer →
      SameServices (servicesFromRows J answer.services answer.triggers answer.dependencies) services)
    (hs : s ∈ services) : s.storable := by
  obtain ⟨x, hx, rfl⟩ : ∃ x ∈ services.zipIdx nextId, x.1 = s := by
    rw [← List.zipIdx_map_fst nextId services] at hs
    exact List.mem_map.mp hs
  -- the service that comes back with some other branches `g x` is `x.1` itself
  have hback : ∀ g : ServiceToml × ℕ → List (List String),
      (∀ y ∈ services.zipIdx nextId, (dependencyRows y.2 ((g y).map J.encodeChain)).Perm
        (dependencyRows y.2 (y.1.proxyDependencies.map J.encodeChain))) →
      { x.1.narrowed with proxyDependencies := g x } = x.1 := by
    intro g hg
    obtain ⟨answer, hanswer, hmem⟩ := answer_chains hg
    exact eq_of_sameServices hnames (h answer hanswer) (hmem x hx) hs rfl
  have hself := hback (fun y => y.1.proxyDependencies) fun y _ => .refl _
  refine ⟨fun t ht => ?_, fun m hm => ?_, ?_⟩
  · have htimeout : x.1.timeout.filter (fun t => t.toNat < 2 ^ 63) = x.1.timeout :=
      congrArg ServiceToml.timeout hself
    rw [ht] at htimeout
    exact of_decide_eq_true (Option.filter_eq_some_iff.mp htimeout).2
  · have hmax : x.1.maxNetworks.filter (fun m => m.toNat < 2 ^ 31) = x.1.maxNetworks :=
      congrArg ServiceToml.maxNetworks hself
    rw [hm] at hmax
    exact of_decide_eq_true (Option.filter_eq_some_iff.mp hmax).2
  · -- any branch beyond the last index may come first among those
    have hfirst : ∀ a ∈ x.1.proxyDependencies.drop (2 ^ 31 - 1),
        a :: (x.1.proxyDependencies.drop (2 ^ 31 - 1)).erase a =
          x.1.proxyDependencies.drop (2 ^ 31 - 1) := by
      intro a ha
      have hlen : (x.1.proxyDependencies.take (2 ^ 31 - 1)).length = 2 ^ 31 - 1 := by
        have hpos := List.length_pos_of_mem ha
        rw [List.length_drop] at hpos
        rw [List.length_take]
        omega
      have hx' := hback (fun y => if y = x then x.1.proxyDependencies.take (2 ^ 31 - 1) ++
        a :: (x.1.proxyDependencies.drop (2 ^ 31 - 1)).erase a else y.1.proxyDependencies) ?_
      · have hdeps := congrArg ServiceToml.proxyDependencies hx'
        dsimp only at hdeps
        rw [if_pos rfl] at hdeps
        nth_rewrite 3 [← List.take_append_drop (2 ^ 31 - 1) x.1.proxyDependencies] at hdeps
        exact List.append_cancel_left hdeps
      · intro y _
        split_ifs with hy
        · subst hy
          conv_rhs => rw [← List.take_append_drop (2 ^ 31 - 1) y.1.proxyDependencies]
          rw [List.map_append, List.map_append]
          exact dependencyRows_perm (by rw [List.length_map, hlen])
            ((List.perm_cons_erase ha).symm.map _)
        · exact .refl _
    intro a ha b hb
    exact (List.cons.inj ((hfirst a ha).trans (hfirst b hb).symm)).1

end

/-! ## Routes -/

variable {services : List ServiceToml} {services' : List ServiceToml}

theorem routeEntry_toInsert {e : RouteEntry} (h : e.sound services) :
    routeEntry services (routeTomlFromRow e.toInsert) = .ok e := by
  obtain ⟨host, path, target⟩ := e
  cases target with
  | service name stripPrefix =>
    refine Checks.map_eq_ok.mpr ⟨.service name stripPrefix, ?_, rfl⟩
    rw [routeTarget_service rfl rfl, serviceTarget_eq_ok]
    exact ⟨rfl, h, rfl⟩
  | redirect redirectTo status preservePath preserveQuery =>
    refine Checks.map_eq_ok.mpr ⟨.redirect redirectTo status preservePath preserveQuery, ?_, rfl⟩
    have hstatus : (some (status.toNat : ℤ)).bind tryU16 = some status := by
      rw [Option.bind_some, tryU16_toNat]
    rw [routeTarget_redirect rfl rfl, redirectTarget_eq_ok]
    simp only [routeTomlFromRow, RouteEntry.toInsert, hstatus, Option.getD_some, true_and, and_true]
    exact h

/-- Whether a route may lead to a service does not depend on the order of the services. -/
theorem routable_of_sameServices
    (hnames : (services.map (·.name)).Nodup) (h : SameServices services' services) {name : String}
    (hroutable : routable services name) : routable services' name := by
  obtain ⟨l, hperm, hall⟩ := h
  have hname : services'.map (·.name) = l.map (·.name) := by
    rw [← List.forall₂_eq_eq_eq, List.forall₂_map_left_iff, List.forall₂_map_right_iff]
    exact hall.imp fun _ _ h => h.1 ▸ rfl
  have hnames' : (services'.map (·.name)).Nodup := by
    rw [hname]
    exact (hperm.map _).nodup_iff.mpr hnames
  obtain ⟨s, hs, hname, hproto, htimeout⟩ := (routable_iff hnames).mp hroutable
  obtain ⟨t, ht, hsame⟩ := Checks.exists_of_mem_right hall (hperm.mem_iff.mpr hs)
  refine (routable_iff hnames').mpr ⟨t, ht, ?_⟩
  rw [hsame.1]
  exact ⟨hname, hproto, htimeout⟩

theorem routes_round_trip {entries : List RouteEntry}
    {rows : List RouteInsert} (hnames : (services.map (·.name)).Nodup)
    (hservices : SameServices services' services) (hsound : ∀ e ∈ entries, e.sound services)
    (hrows : rows.Perm (routeEntriesToInserts entries)) :
    ∃ entries', buildRouteEntries services' (rows.map routeTomlFromRow) = .ok entries' ∧
      entries'.Perm entries := by
  obtain ⟨entries', rfl, hperm⟩ := (congrFun (congrFun (List.eq_map_comp_perm _) _) _).mpr hrows
  refine ⟨entries', Checks.mapM_eq_ok.mpr ?_, hperm⟩
  rw [List.forall₂_map_left_iff, List.forall₂_map_left_iff, List.forall₂_same]
  intro e he
  refine routeEntry_toInsert ?_
  have hsound := hsound e (hperm.mem_iff.mp he)
  unfold RouteEntry.sound at hsound ⊢
  cases htarget : e.target with
  | service name stripPrefix =>
    rw [htarget] at hsound
    exact routable_of_sameServices hnames hservices hsound
  | redirect redirectTo status preservePath preserveQuery =>
    rw [htarget] at hsound
    exact hsound

/-- **Row round trip.** Whatever the database answers, the services that come back are those that were
stored if and only if they fit their rows. When the services come back, the routes do. -/
theorem row_round_trip {F C : Type} (p : Parsers) (J : Json F C) (services : List ServiceToml)
    (routes : List RouteToml) (nextId : ℕ) {parsed : ParsedStack}
    (hnames : (services.map (·.name)).Nodup) (h : validateStack p services routes = .ok parsed) :
    ((∀ answer, Answer (storeServices nextId (servicesToInserts J services)) answer →
        SameServices (servicesFromRows J answer.services answer.triggers answer.dependencies)
          services) ↔ ∀ s ∈ services, s.storable) ∧
    ∀ (services' : List ServiceToml) (rows : List RouteInsert), SameServices services' services →
      rows.Perm (routeEntriesToInserts parsed.routes) →
      ∃ entries, buildRouteEntries services' (rows.map routeTomlFromRow) = .ok entries ∧
        entries.Perm parsed.routes := by
  refine ⟨⟨fun h s hs => storable_of_sameServices hnames h hs,
    fun h answer => sameServices_of_storable h⟩, fun services' rows hservices hrows => ?_⟩
  obtain ⟨matchEntries, -, h⟩ := Checks.bind_eq_ok.mp h
  obtain ⟨entries, hentries, h⟩ := Checks.bind_eq_ok.mp h
  obtain ⟨map, -, h⟩ := Checks.bind_eq_ok.mp h
  obtain rfl := Except.ok.inj h
  exact routes_round_trip hnames hservices (sound_of_buildRouteEntries hentries) hrows

/-! ## Examples -/

def Json.plain : Json FilterPolicy (List String) :=
  ⟨id, some, id, some, fun _ => rfl, fun _ => rfl⟩

def webService (name : String) (timeout : UInt64) : ServiceToml where
  name := name
  dockerContainer := none
  processPath := none
  hostIp := none
  pausable := false
  port := some 8080
  timeout := some timeout
  proxyDependencies := [["db"], ["cache", "db"]]
  backends := []
  maxNetworks := some 4
  protocol := none
  listenPort := none
  egressFilter := .none
  ingressFilter := .none

/-- A timeout of `2 ^ 63` comes back as none: the proxy does not reach the service any more. -/
theorem timeout_comes_back_as_none :
    ((validateStack .plain [webService "shop" (2 ^ 63)] []).toOption.isSome) ∧
    let rows := storeServices 1 (servicesToInserts Json.plain [webService "shop" (2 ^ 63)])
    Answer rows rows ∧
    servicesFromRows Json.plain rows.services rows.triggers rows.dependencies =
      [{ webService "shop" (2 ^ 63) with timeout := none }] ∧
    ¬SameServices (servicesFromRows Json.plain rows.services rows.triggers rows.dependencies)
      [webService "shop" (2 ^ 63)] := by
  have hback : servicesFromRows Json.plain
      (storeServices 1 (servicesToInserts Json.plain [webService "shop" (2 ^ 63)])).services
      (storeServices 1 (servicesToInserts Json.plain [webService "shop" (2 ^ 63)])).triggers
      (storeServices 1 (servicesToInserts Json.plain [webService "shop" (2 ^ 63)])).dependencies =
        [{ webService "shop" (2 ^ 63) with timeout := none }] := by decide +kernel
  refine ⟨by decide +kernel, ⟨.refl _, .refl _, .refl _, by decide +kernel⟩, hback, fun h => ?_⟩
  rw [hback] at h
  have hsame := eq_of_sameServices (by decide +kernel) h (List.mem_singleton_self _)
    (List.mem_singleton_self _) rfl
  exact absurd (congrArg ServiceToml.timeout hsame) (by decide)

theorem storable_webService {name : String} {timeout : UInt64} (h : timeout.toNat < 2 ^ 63) :
    (webService name timeout).storable := by
  refine ⟨fun t ht => ?_, fun limit hlimit => ?_, fun a ha => ?_⟩
  · rwa [← Option.some.inj ht]
  · rw [← Option.some.inj hlimit]
    decide
  · cases ha

/-- Two services come back, with timeouts of minutes. -/
theorem minute_comes_back :
    let services := [webService "shop" 60, webService "blog" 90]
    (validateStack .plain services []).toOption.isSome ∧
      ∀ answer, Answer (storeServices 1 (servicesToInserts Json.plain services)) answer →
        SameServices (servicesFromRows Json.plain answer.services answer.triggers answer.dependencies)
          services := by
  intro services
  obtain ⟨parsed, hparsed⟩ : ∃ parsed, validateStack .plain services [] = .ok parsed := ⟨_, rfl⟩
  refine ⟨rfl, (row_round_trip _ _ services [] 1 (by decide +kernel) hparsed).1.mpr fun s hs => ?_⟩
  rcases List.mem_pair.mp hs with rfl | rfl <;> exact storable_webService (by decide)

end Nullnet.Config
