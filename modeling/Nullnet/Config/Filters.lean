import Nullnet.Lib.Checks
import Nullnet.Lib.Postfix
import Nullnet.Server.SessionHistory

/-! # The traffic filters of a service

A service may declare a filter for the destinations that it contacts (`Direction.egress`) and one for
the clients that reach it through a proxy (`Direction.ingress`). `FilterPolicy.validate` is what the
loader asks of a filter.

A filter is evaluated for one address, with what is known of its place (`FilterPolicy.allows`). Its
groups of rules are put in postfix form, which an interpreter evaluates. A rule about a country or an
organisation does not match an address of which these are not known, not even if the rule asks for a
country that is none of those given.

The parsing of addresses, the case of letters and the interpreter are left to `Parsers` and
`Lookups`. -/

namespace Nullnet.Config

open Nullnet.Lib
open Nullnet.Server (Ipv4Addr SessionGeo)

/-- What libraries know of strings. -/
structure Parsers where
  ipv4 : String → Option Ipv4Addr
  /-- The string is an address or a network. -/
  isNetwork : String → Bool
  toUppercase : String → String
  /-- Nothing is left after trimming. -/
  isBlank : String → Bool

def Parsers.plain : Parsers := ⟨fun _ => none, fun _ => true, id, fun s => s = ""⟩

inductive Direction
  | egress
  | ingress
  deriving DecidableEq

def Direction.label : Direction → String
  | .egress => "egress"
  | .ingress => "ingress"

inductive FilterField
  | country
  | org
  | srcIp
  | dstIp
  deriving DecidableEq

inductive FilterCondition
  | equal
  | notEqual
  | contains
  | notContains
  deriving DecidableEq

structure FilterRule where
  field : FilterField
  condition : FilterCondition
  values : List String
  deriving DecidableEq

inductive FilterPolicy
  | none
  | block (groups : List (List FilterRule))
  | allow (groups : List (List FilterRule))
  deriving DecidableEq

/-- The check of one rule, which also puts countries in capital letters. -/
def FilterRule.validate (p : Parsers) (direction : Direction) (service : String)
    (rule : FilterRule) : Except String FilterRule :=
  if rule.values = [] then
    .error ("service '" ++ service ++ "': " ++ direction.label ++ " filter rule has no values")
  else match rule.field, direction with
    | .srcIp, .egress =>
      .error ("service '" ++ service ++ "': 'src_ip' only applies to ingress filters")
    | .dstIp, .ingress =>
      .error ("service '" ++ service ++ "': 'dst_ip' only applies to egress filters")
    | .country, _ => .ok { rule with values := rule.values.map p.toUppercase }
    | .srcIp, .ingress | .dstIp, .egress =>
      match rule.values.find? fun v => !p.isNetwork v with
      | some v => .error ("service '" ++ service ++ "': invalid CIDR/address '" ++ v ++ "'")
      | none => .ok rule
    | .org, _ => .ok rule

def validateGroups (p : Parsers) (direction : Direction) (service : String)
    (groups : List (List FilterRule)) : Except String (List (List FilterRule)) :=
  if groups = [] ∨ [] ∈ groups then
    .error ("service '" ++ service ++ "': " ++ direction.label ++ " filter has an empty rule group")
  else groups.mapM fun group => group.mapM (FilterRule.validate p direction service)

def FilterPolicy.validate (p : Parsers) (direction : Direction) (service : String) :
    FilterPolicy → Except String FilterPolicy
  | .none => .ok .none
  | .block groups => (validateGroups p direction service groups).map .block
  | .allow groups => (validateGroups p direction service groups).map .allow

/-! ## Evaluation -/

/-- What the server knows of texts and addresses when it evaluates filters. -/
structure Lookups where
  /-- `Ipv4Addr::from_str`. -/
  ipv4 : String → Option Ipv4Addr
  /-- `IpNetwork::from_str`, as the IPv4 addresses that the network contains. -/
  network : String → Option (Ipv4Addr → Bool)
  /-- Where an address is, if that is known. -/
  geo : Ipv4Addr → Option SessionGeo
  /-- `PostfixExpression::from_tokens`, as what `evaluate` makes of the expression. -/
  fromTokens : List (PostfixToken FilterRule) → Option ((FilterRule → Bool) → Bool)

structure FilterContext where
  ip : Ipv4Addr
  geo : Option SessionGeo

def eqIgnoreAsciiCase (a b : String) : Bool := a.toList.map Char.toLower = b.toList.map Char.toLower

/-- `compare_str`; containment is for addresses only. -/
def FilterCondition.compareStr (left : String) (right : List String) : FilterCondition → Bool
  | equal => right.any (eqIgnoreAsciiCase · left)
  | notEqual => right.all fun v => !eqIgnoreAsciiCase v left
  | contains | notContains => false

/-- `compare_ip`; values that are no network are ignored, and equality is for names only. -/
def FilterCondition.compareIp (w : Lookups) (ip : Ipv4Addr) (values : List String) :
    FilterCondition → Bool
  | contains => (values.filterMap w.network).any (· ip)
  | notContains => (values.filterMap w.network).all fun net => !net ip
  | equal | notEqual => false

def FilterContext.evaluatePredicate (w : Lookups) (ctx : FilterContext) (rule : FilterRule) : Bool :=
  match rule.field with
  | .country => (ctx.geo.bind (·.countryCode)).any fun c => rule.condition.compareStr c rule.values
  | .org => (ctx.geo.bind (·.org)).any fun o => rule.condition.compareStr o rule.values
  | .srcIp | .dstIp => rule.condition.compareIp w ctx.ip rule.values

/-- The rules of a group, joined by *and*. -/
def groupTokens (group : List FilterRule) : List (PostfixToken FilterRule) :=
  PostfixToken.chain .and (group.map fun rule => [.predicate rule])

/-- `to_postfix`: the groups, joined by *or*, unless one of them is empty. -/
def toPostfix (w : Lookups) (groups : List (List FilterRule)) : Option ((FilterRule → Bool) → Bool) :=
  if groups.any List.isEmpty then none
  else w.fromTokens (PostfixToken.chain .or (groups.map groupTokens))

/-- `matches`; groups that are no expression match nothing. -/
def groupsMatch (w : Lookups) (groups : List (List FilterRule)) (ctx : FilterContext) : Bool :=
  (toPostfix w groups).any fun expr => expr (ctx.evaluatePredicate w)

namespace FilterPolicy

def isNone : FilterPolicy → Bool
  | none => true
  | block _ | allow _ => false

def allows (w : Lookups) (ctx : FilterContext) : FilterPolicy → Bool
  | none => true
  | block groups => !groupsMatch w groups ctx
  | allow groups => groupsMatch w groups ctx

/-- What a filter is meant to let pass. -/
def passes (w : Lookups) (ctx : FilterContext) : FilterPolicy → Bool
  | none => true
  | block groups => !groups.any (·.all (ctx.evaluatePredicate w))
  | allow groups => groups.any (·.all (ctx.evaluatePredicate w))

def groups : FilterPolicy → List (List FilterRule)
  | none => []
  | block groups | allow groups => groups

end FilterPolicy

/-- The value of the field is known. -/
def FilterContext.knows (ctx : FilterContext) : FilterField → Bool
  | .country => (ctx.geo.bind (·.countryCode)).isSome
  | .org => (ctx.geo.bind (·.org)).isSome
  | .srcIp | .dstIp => true

/-- Groups with rules match if one of them has all its rules matched. -/
theorem groupsMatch_eq {w : Lookups} (hw : PostfixToken.Interprets w.fromTokens) (ctx : FilterContext)
    {groups : List (List FilterRule)} (hne : groups ≠ []) (hg : [] ∉ groups) :
    groupsMatch w groups ctx = groups.any (·.all (ctx.evaluatePredicate w)) := by
  have hany : groups.any List.isEmpty = false := by
    rw [List.any_eq_false]
    exact fun group hmem hempty => hg (List.isEmpty_iff.mp hempty ▸ hmem)
  have hgroup : ∀ group ∈ groups, PostfixToken.Computes (ctx.evaluatePredicate w)
      (groupTokens group) (group.all (ctx.evaluatePredicate w)) := fun group hmem =>
    PostfixToken.computes_chain .and (ne_of_mem_of_not_mem hmem hg) fun rule _ =>
      PostfixToken.computes_predicate rule
  obtain ⟨expr, hexpr, hval⟩ := hw.value (PostfixToken.computes_chain .or hne hgroup)
  rw [groupsMatch, toPostfix, hany, if_neg Bool.false_ne_true, hexpr, Option.any_some, hval]
  rfl

/-! ## What validation ensures -/

section

variable {p : Parsers} {direction : Direction} {service : String} {policy policy' : FilterPolicy}

theorem FilterRule.values_of_validate {rule rule' : FilterRule}
    (h : rule.validate p direction service = .ok rule') : rule'.values ≠ [] := by
  unfold FilterRule.validate at h
  split_ifs at h with hv
  split at h <;> try split at h
  all_goals cases h
  · exact fun hm => hv (List.map_eq_nil_iff.mp hm)
  all_goals exact hv

/-- There are groups, they have rules, and these have values. -/
theorem of_validate (h : policy.validate p direction service = .ok policy') :
    (policy' = .none ∨ policy'.groups ≠ []) ∧
      ∀ group ∈ policy'.groups, group ≠ [] ∧ ∀ rule ∈ group, rule.values ≠ [] := by
  have hgroups : ∀ groups groups', validateGroups p direction service groups = .ok groups' →
      groups' ≠ [] ∧ ∀ group ∈ groups', group ≠ [] ∧ ∀ rule ∈ group, rule.values ≠ [] := by
    intro groups groups' h
    unfold validateGroups at h
    split_ifs at h with hempty
    rw [not_or] at hempty
    have hall := Checks.mapM_eq_ok.mp h
    refine ⟨?_, fun group' hmem => ?_⟩
    · rintro rfl
      exact hempty.1 (List.forall₂_nil_right_iff.mp hall)
    · obtain ⟨group, hm, hgroup⟩ := Checks.exists_of_mem_right hall hmem
      have hrules := Checks.mapM_eq_ok.mp hgroup
      refine ⟨?_, fun rule hrule => ?_⟩
      · rintro rfl
        exact hempty.2 (List.forall₂_nil_right_iff.mp hrules ▸ hm)
      · obtain ⟨_, _, hr⟩ := Checks.exists_of_mem_right hrules hrule
        exact FilterRule.values_of_validate hr
  cases policy with
  | none => cases h; exact ⟨.inl rfl, nofun⟩
  | block groups | allow groups =>
    obtain ⟨groups', hg, rfl⟩ := Checks.map_eq_ok.mp h
    exact (hgroups _ _ hg).imp_left .inr

/-- **A validated filter lets pass what it is meant to** if the interpreter evaluates well-formed
expressions in the usual way, and rules about what is not known do not match. -/
theorem allows_of_validate {w : Lookups} (hw : PostfixToken.Interprets w.fromTokens) (ctx : FilterContext)
    (h : policy.validate p direction service = .ok policy') :
    policy'.allows w ctx = policy'.passes w ctx ∧
      ∀ rule, ctx.knows rule.field = false → ctx.evaluatePredicate w rule = false := by
  obtain ⟨hne, hrules⟩ := of_validate h
  refine ⟨?_, fun rule hk => ?_⟩
  · cases policy' with
    | none => rfl
    | block groups | allow groups =>
      have hmatch : groupsMatch w groups ctx = _ :=
        groupsMatch_eq hw ctx (hne.resolve_left nofun) fun hmem => (hrules [] hmem).1 rfl
      rw [FilterPolicy.allows, FilterPolicy.passes, hmatch]
  · unfold FilterContext.evaluatePredicate
    unfold FilterContext.knows at hk
    split at hk
    case h_3 | h_4 => cases hk
    all_goals rw [Option.isSome_eq_false_iff, Option.isNone_iff_eq_none] at hk; rw [hk]; rfl

/-- Clients from abroad that are not of one organisation, and those of a network. -/
def abroadOrOffice : FilterPolicy :=
  .allow [[⟨.country, .notEqual, ["DE", "FR"]⟩, ⟨.org, .notEqual, ["acme"]⟩],
    [⟨.srcIp, .contains, ["10.0.0.0/8"]⟩]]

def oneNetwork : Lookups where
  ipv4 _ := none
  network text := if text = "10.0.0.0/8" then some fun ip => ip.toNat / 2 ^ 24 = 10 else none
  geo _ := none
  fromTokens := PostfixToken.onStack

theorem allows_of_validate_abroad :
    abroadOrOffice.validate .plain .ingress "db" = .ok abroadOrOffice ∧
      abroadOrOffice.allows oneNetwork ⟨0x08080808, some ⟨some "us", none, some "Globex"⟩⟩ = true ∧
      abroadOrOffice.allows oneNetwork ⟨0x08080808, some ⟨some "us", none, some "Acme"⟩⟩ = false ∧
      abroadOrOffice.allows oneNetwork ⟨0x0A000001, none⟩ = true := by
  have h : abroadOrOffice.validate .plain .ingress "db" = .ok abroadOrOffice := rfl
  have key := fun ctx => (allows_of_validate (w := oneNetwork) PostfixToken.interprets_onStack ctx h).1
  exact ⟨h, key _, key _, key _⟩

end

end Nullnet.Config
