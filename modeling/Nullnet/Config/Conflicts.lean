import Mathlib.Data.List.Sort
import Nullnet.Config.Toml
import Nullnet.Lib.Claims

/-! # Conflicts between stacks

Ports, routes and names of services are global: no two services may listen on one port of a protocol, no
two routes may have the same host and path, and no two stacks may have a service of the same name, where
names that are only mentioned count. The three detections go through the maps of all stacks; the startup
drops all stacks that are party to a conflict (`StackMaps.keep`). -/

namespace Nullnet.Config

open Nullnet.Lib Nullnet.Lib.Claims

/-- A `StackMap`, without what runs, with its `MatchIndex` and its `RouteMap`. -/
structure StackMaps where
  services : Dict String (Dict String ServiceDecl)
  index : Dict String (List MatchEntry)
  routes : Dict String (List RouteEntry)

/-! ## Detection -/

/-- The ports that the services of a stack listen on. -/
def portClaims (services : Dict String ServiceDecl) :
    List ((ServiceProtocol × UInt16) × String) :=
  services.entries.filterMap fun e => e.2.listenPort.map fun port => ((e.2.protocol, port), e.1)

/-- The hosts and paths of the routes of a stack. -/
def routeClaims (routes : List RouteEntry) : List ((String × String) × Unit) :=
  routes.map fun r => ((r.host, r.path), ())

def nameClaims (services : Dict String ServiceDecl) : List (String × Unit) :=
  services.keys.map fun name => (name, ())

def detectPortConflicts (services : Dict String (Dict String ServiceDecl)) :
    List (Conflict (ServiceProtocol × UInt16) (String × String)) :=
  detect (claims portClaims services)

def detectRouteConflicts (routes : Dict String (List RouteEntry)) :
    List (Conflict (String × String) (String × Unit)) :=
  detect (claims routeClaims routes)

/-- The names of all stacks, in the order of the stacks and of the names. -/
def sortedNames (services : Dict String (Dict String ServiceDecl)) :
    List (String × (String × Unit)) :=
  (services.keys.insertionSort (· ≤ ·)).flatMap fun stack =>
    (((services.lookup stack).elim [] AList.keys).insertionSort (· ≤ ·)).map fun name =>
      (name, (stack, ()))

def detectNameConflicts (services : Dict String (Dict String ServiceDecl)) :
    List (Conflict String (String × Unit)) :=
  detect (sortedNames services)

theorem sortedNames_perm (services : Dict String (Dict String ServiceDecl)) :
    (sortedNames services).Perm (claims nameClaims services) := by
  refine ((List.perm_insertionSort _ _).flatMap_right _).trans ?_
  rw [AList.keys, List.keys, List.flatMap_map]
  refine .flatMap_left _ fun e he => ?_
  rw [Dict.lookup_eq_some.mpr (show ⟨e.1, e.2⟩ ∈ services.entries from he), nameClaims, List.map_map]
  exact (List.perm_insertionSort _ _).map _

/-! ## All stacks -/

namespace StackMaps

/-- The stack claims no port, route or name that it or another stack claims as well. -/
structure Apart (m : StackMaps) (stack : String) : Prop where
  ports : Claims.Apart portClaims m.services stack
  routes : Claims.Apart routeClaims m.routes stack
  names : Claims.Apart nameClaims m.services stack

def parties (m : StackMaps) : List String :=
  (detectPortConflicts m.services).flatMap (fun c => [c.first.1, c.second.1]) ++
    (detectRouteConflicts m.routes).flatMap (fun c => [c.first.1, c.second.1]) ++
    (detectNameConflicts m.services).flatMap fun c => [c.first.1, c.second.1]

def remove (m : StackMaps) (stack : String) : StackMaps :=
  ⟨m.services.erase stack, m.index.erase stack, m.routes.erase stack⟩

/-- What `load_validated` keeps of the maps that were loaded. -/
def keep (m : StackMaps) : StackMaps := m.parties.foldl remove m

end StackMaps

end Nullnet.Config
