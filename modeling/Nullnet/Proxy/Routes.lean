import Mathlib.Algebra.Group.Nat.Defs
import Mathlib.Data.List.Infix
import Mathlib.Data.List.Sort
import Nullnet.Lib.Dict

/-! # Routes of the proxy

The routes of a host, longest prefix first, and what they make of a request: a service and the path to
forward, or a redirect. The target of a redirect is put together from the text of the operator, the rest
of the request path behind the prefix, and the query (`resolveRedirectTarget`). -/

namespace Nullnet.Proxy

open Nullnet.Lib

abbrev Text : Type := List Char

inductive Target
  | serviceName (name : String)
  | redirect (redirectTo : Text) (statusCode : ℕ) (preservePath preserveQuery : Bool)
  deriving DecidableEq

structure HttpRoute where
  host : Text
  pathPrefix : Text
  target : Option Target
  stripPrefix : Bool
  deriving DecidableEq

inductive RouteMatch
  | backend (serviceName : String) (forwardPath : Text)
  | redirect (redirectTo : Text) (status : ℕ) (preservePath preserveQuery : Bool) (matchedSuffix : Text)
  deriving DecidableEq

inductive Resolution
  | fallback
  | matched (m : RouteMatch)
  | notFound
  deriving DecidableEq

def normalizeForwardPath (suffix : Text) : Text :=
  if suffix = [] then ['/'] else if suffix.head? = some '/' then suffix else '/' :: suffix

structure RouteTable where
  byHost : Dict Text (List HttpRoute) := ∅

namespace RouteTable

/-- `from_bundle`; the order of routes with equally long prefixes is kept. The length is in characters
where the source counts bytes: the prefixes of one path come in the same order by both. -/
def fromBundle (routes : List HttpRoute) : RouteTable where
  byHost :=
    let add (m : Dict Text (List HttpRoute)) (r : HttpRoute) :=
      m.insert r.host ((m.lookup r.host).getD [] ++ [r])
    (routes.foldl add ∅).mapValues
      (List.insertionSort fun a b => b.pathPrefix.length ≤ a.pathPrefix.length)

/-- The first route that matches and has a target. -/
def find (path : Text) : List HttpRoute → Resolution
  | [] => .notFound
  | r :: routes =>
    match path.dropPrefix? r.pathPrefix, r.target with
    | some suffix, some (.serviceName name) =>
      .matched (.backend name (if r.stripPrefix then normalizeForwardPath suffix else path))
    | some suffix, some (.redirect redirectTo statusCode preservePath preserveQuery) =>
      .matched (.redirect redirectTo (if statusCode < 2 ^ 16 then statusCode else 301) preservePath
        preserveQuery suffix)
    | _, _ => find path routes

def resolve (t : RouteTable) (host path : Text) : Resolution :=
  (t.byHost.lookup host).elim .fallback (find path)

end RouteTable

/-- `str::split_once` at a question mark. -/
def splitQuery (redirectTo : Text) : Text × Option Text :=
  (redirectTo.takeWhile (· ≠ '?'), (redirectTo.dropWhile (· ≠ '?')).tail?)

/-- The text has a scheme separator somewhere. -/
def hasSeparator (t : Text) : Bool := "://".toList <:+: t

def resolveRedirectTarget (redirectTo matchedSuffix : Text) (preservePath preserveQuery : Bool)
    (hostHeader query : Option Text) (tls : Bool) : Text :=
  let (base, existingQuery) := splitQuery redirectTo
  let queries := existingQuery.toList ++ if preserveQuery then query.toList else []
  let target := base ++ (if preservePath then matchedSuffix else []) ++
    if queries = [] then [] else '?' :: ['&'].intercalate queries
  if hasSeparator target then target
  else (if tls then "https" else "http").toList ++ "://".toList ++ hostHeader.getD [] ++ target

/-! ## The longest prefix wins -/

/-- What a target is made of, for a path with the suffix behind the prefix. -/
def Target.answer (stripPrefix : Bool) (path suffix : Text) : Target → RouteMatch
  | .serviceName name => .backend name (if stripPrefix then normalizeForwardPath suffix else path)
  | .redirect redirectTo statusCode preservePath preserveQuery =>
    .redirect redirectTo (if statusCode < 2 ^ 16 then statusCode else 301) preservePath preserveQuery suffix

/-- What a route makes of a path that it covers. -/
def HttpRoute.answer (path : Text) (r : HttpRoute) : Option RouteMatch :=
  if r.pathPrefix <+: path then
    r.target.map (·.answer r.stripPrefix path (path.drop r.pathPrefix.length))
  else none

theorem HttpRoute.answer_isSome (path : Text) (r : HttpRoute) :
    (r.answer path).isSome ↔ r.pathPrefix <+: path ∧ r.target.isSome := by
  unfold answer
  split_ifs with h <;> simp [h]

theorem HttpRoute.answer_eq (path : Text) (r : HttpRoute) : r.answer path =
    (path.dropPrefix? r.pathPrefix).bind fun suffix => r.target.map (·.answer r.stripPrefix path suffix) := by
  unfold answer
  split_ifs with h
  · obtain ⟨suffix, rfl⟩ := h
    rw [List.dropPrefix?_append_of_beq suffix BEq.rfl, List.drop_left]
    rfl
  · rcases hs : path.dropPrefix? r.pathPrefix with - | suffix
    · rfl
    · obtain ⟨p, rfl, hp⟩ := List.dropPrefix?_eq_some_iff.mp hs
      exact absurd ⟨suffix, by rw [eq_of_beq hp]⟩ h

namespace RouteTable

theorem find_eq (path : Text) (l : List HttpRoute) :
    find path l = (l.findSome? (·.answer path)).elim .notFound .matched := by
  induction l with
  | nil => rfl
  | cons r l ih =>
    rcases hs : path.dropPrefix? r.pathPrefix with - | suffix <;>
      rcases ht : r.target with - | (name | ⟨location, status, keepPath, keepQuery⟩) <;>
      simp [HttpRoute.answer_eq, Target.answer, find, hs, ht, ih]

theorem lookup_grouped (routes : List HttpRoute) (host : Text) (m : Dict Text (List HttpRoute)) :
    (routes.foldl (fun m r => m.insert r.host ((m.lookup r.host).getD [] ++ [r])) m).lookup host =
      if routes.filter (·.host = host) = [] then m.lookup host
      else some ((m.lookup host).getD [] ++ routes.filter (·.host = host)) := by
  induction routes generalizing m with
  | nil => rfl
  | cons r routes ih =>
    rw [List.foldl_cons, ih, Dict.lookup_insert]
    by_cases h : r.host = host
    · subst h
      by_cases hf : routes.filter (·.host = r.host) = [] <;> simp [hf]
    · simp [h, Ne.symm h]

/-- The routes of a host, the longest prefix first. -/
theorem lookup_fromBundle (routes : List HttpRoute) (host : Text) :
    ∃ l, (∀ r, r ∈ l ↔ r ∈ routes ∧ r.host = host) ∧
      l.Pairwise (fun a b => b.pathPrefix.length ≤ a.pathPrefix.length) ∧
      (fromBundle routes).byHost.lookup host = if l = [] then none else some l := by
  let le (a b : HttpRoute) : Prop := b.pathPrefix.length ≤ a.pathPrefix.length
  have : Std.Total le := ⟨fun _ _ => le_total _ _⟩
  have : IsTrans HttpRoute le := ⟨fun _ _ _ h h' => h'.trans h⟩
  refine ⟨_, fun r => ?_, List.pairwise_insertionSort le (routes.filter (·.host = host)), ?_⟩
  · simp
  · rw [fromBundle, Dict.lookup_mapValues, lookup_grouped, AList.lookup_empty, Option.getD_none,
      List.nil_append]
    by_cases hf : routes.filter (·.host = host) = []
    · simp [hf]
    · have hperm := List.perm_insertionSort le (routes.filter (·.host = host))
      rw [if_neg hf, if_neg fun h => hf (List.perm_nil.mp (h ▸ hperm).symm)]
      rfl

/-- **The longest prefix wins**: a table dispatches to the route of the host that has the longest
prefix of the path, among those with a target. It falls back if the bundle has no route of the host. -/
theorem resolve_longest (routes : List HttpRoute) (host path : Text) :
    ((fromBundle routes).resolve host path = .fallback ↔ ∀ r ∈ routes, r.host ≠ host) ∧
    ((fromBundle routes).resolve host path = .notFound ↔ (∃ r ∈ routes, r.host = host) ∧
      ∀ r ∈ routes, r.host = host → ¬(r.pathPrefix <+: path ∧ r.target.isSome)) ∧
    ∀ m, (fromBundle routes).resolve host path = .matched m →
      ∃ r ∈ routes, r.host = host ∧ r.answer path = some m ∧ ∀ r' ∈ routes, r'.host = host →
        r'.pathPrefix <+: path ∧ r'.target.isSome → r'.pathPrefix.length ≤ r.pathPrefix.length := by
  obtain ⟨l, hmem, hsorted, hl⟩ := lookup_fromBundle routes host
  simp only [resolve, hl, ← HttpRoute.answer_isSome]
  by_cases hnil : l = []
  · subst hnil
    have hnone : ∀ r ∈ routes, r.host ≠ host := fun r hr h => nomatch (hmem r).mpr ⟨hr, h⟩
    refine ⟨iff_of_true rfl hnone, iff_of_false nofun ?_, nofun⟩
    rintro ⟨⟨r, hr, h⟩, -⟩
    exact hnone r hr h
  obtain ⟨r₀, h₀⟩ := List.exists_mem_of_ne_nil l hnil
  have h₀ := (hmem r₀).mp h₀
  have hsome : ¬∀ r ∈ routes, r.host ≠ host := fun h => h r₀ h₀.1 h₀.2
  rw [if_neg hnil, Option.elim_some, find_eq]
  rcases hf : l.findSome? (·.answer path) with - | m <;> rw [hf]
  · rw [List.findSome?_eq_none_iff] at hf
    refine ⟨iff_of_false nofun hsome, iff_of_true rfl ⟨⟨r₀, h₀⟩, fun r hr h => ?_⟩, nofun⟩
    simp [hf r ((hmem r).mpr ⟨hr, h⟩)]
  · obtain ⟨l₁, r, l₂, rfl, hr, hnone⟩ := List.findSome?_eq_some_iff.mp hf
    obtain ⟨-, hle, -⟩ := List.pairwise_append.mp hsorted
    have hmem' := (hmem r).mp (by simp)
    refine ⟨iff_of_false nofun hsome, iff_of_false nofun fun h => ?_, ?_⟩
    · exact h.2 r hmem'.1 hmem'.2 (by simp [hr])
    · rintro _ ⟨⟩
      refine ⟨r, hmem'.1, hmem'.2, hr, fun r' hr' h ha => ?_⟩
      -- the routes before the first answer give none
      rcases List.mem_append.mp ((hmem r').mpr ⟨hr', h⟩) with h' | h'
      · simp [hnone r' h'] at ha
      · rcases List.mem_cons.mp h' with rfl | h'
        · exact le_rfl
        · exact List.rel_of_pairwise_cons hle h'

/-- The longer of two prefixes of a path wins, and is taken off. -/
theorem resolve_longest_api :
    let routes : List HttpRoute := [⟨"a".toList, "/".toList, some (.serviceName "web"), false⟩,
      ⟨"a".toList, "/api".toList, some (.serviceName "api"), true⟩]
    ∃ r ∈ routes, r.host = "a".toList ∧ r.answer "/api/v1".toList = some (.backend "api" "/v1".toList) ∧
      ∀ r' ∈ routes, r'.host = "a".toList → r'.pathPrefix <+: "/api/v1".toList ∧ r'.target.isSome →
        r'.pathPrefix.length ≤ r.pathPrefix.length :=
  (resolve_longest _ _ _).2.2 _ (by decide +kernel)

end RouteTable

end Nullnet.Proxy
