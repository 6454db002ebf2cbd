import Nullnet.Config.Filters

/-! # The declared configuration of a stack

A stack declares services and routes. `validateStack` is what the loader and all save paths ask of it:
it checks the services and the routes, and turns them into what the server works with, which is a map
of services, the entries that match them to what runs on the hosts, and the routes. Names that are only
mentioned as dependencies are services as well (`placeholder`).

The parsing of addresses and the case of letters are left to `Parsers`. -/

namespace Nullnet.Config

open Nullnet.Lib
open Nullnet.Server (Ipv4Addr)

/-! ## Declarations -/

inductive ServiceProtocol
  | http
  | tcp
  | udp
  deriving DecidableEq

def ServiceProtocol.debug : ServiceProtocol → String
  | .http => "Http"
  | .tcp => "Tcp"
  | .udp => "Udp"

structure ServiceToml where
  name : String
  dockerContainer : Option String
  processPath : Option String
  hostIp : Option String
  pausable : Bool
  port : Option UInt16
  timeout : Option UInt64
  proxyDependencies : List (List String)
  backends : List String
  maxNetworks : Option UInt32
  protocol : Option ServiceProtocol
  listenPort : Option UInt16
  egressFilter : FilterPolicy
  ingressFilter : FilterPolicy
  deriving DecidableEq

structure RouteToml where
  host : String
  path : String
  service : Option String
  stripPrefix : Bool
  redirectTo : Option String
  redirectStatus : Option UInt16
  preservePath : Bool
  preserveQuery : Bool
  deriving DecidableEq

inductive RouteTarget
  | service (name : String) (stripPrefix : Bool)
  | redirect (redirectTo : String) (status : UInt16) (preservePath preserveQuery : Bool)
  deriving DecidableEq

structure RouteEntry where
  host : String
  path : String
  target : RouteTarget
  deriving DecidableEq

/-- What matches a service to what runs on a host. -/
structure MatchEntry where
  name : String
  port : UInt16
  dockerContainer : Option String
  processPath : Option String
  hostIp : Option Ipv4Addr
  deriving DecidableEq

/-- The part of a `ServiceInfo` that comes from the configuration. -/
structure ServiceDecl where
  proxyDeps : List (List String)
  triggers : Dict UInt16 String
  timeout : Option UInt64
  maxNetworks : Option UInt32
  protocol : ServiceProtocol
  listenPort : Option UInt16
  egressPolicy : FilterPolicy
  ingressPolicy : FilterPolicy
  pausable : Bool
  deriving DecidableEq

/-- A name that is only mentioned. -/
def placeholder : ServiceDecl := ⟨[], ∅, none, none, .http, none, .none, .none, false⟩

/-- The protocol of a service; http if none is declared. -/
def ServiceToml.protocolOrHttp (s : ServiceToml) : ServiceProtocol := s.protocol.getD .http

/-! ## Routes -/

def RouteToml.label (r : RouteToml) : String := "route '" ++ r.host ++ " " ++ r.path ++ "': "

def serviceTarget (services : List ServiceToml) (r : RouteToml) (name : String) :
    Except String RouteTarget :=
  if r.preservePath || r.preserveQuery then
    .error (r.label ++ "'preserve_path'/'preserve_query' only apply to 'redirect_to' routes")
  else match services.find? fun s => s.name = name with
    | none => .error (r.label ++ "service '" ++ name ++ "' is not declared in this stack")
    | some svc =>
      if svc.protocolOrHttp ≠ .http then
        .error (r.label ++ "service '" ++ name ++ "' is protocol " ++ svc.protocolOrHttp.debug ++
          ", routes can only target http services")
      else if svc.timeout.isNone then
        .error (r.label ++ "service '" ++ name ++
          "' has no 'timeout', so it isn't a proxy-reachable entry point")
      else .ok (.service name r.stripPrefix)

def redirectStatuses : List UInt16 := [301, 302, 307, 308]

def redirectTarget (r : RouteToml) (redirectTo : String) : Except String RouteTarget :=
  if r.stripPrefix then .error (r.label ++ "'strip_prefix' only applies to 'service' routes")
  else
    let status := r.redirectStatus.getD 301
    if status ∉ redirectStatuses then
      .error (r.label ++ "redirect_status " ++ toString status ++ " must be one of 301/302/307/308")
    else .ok (.redirect redirectTo status r.preservePath r.preserveQuery)

def routeTarget (services : List ServiceToml) (r : RouteToml) : Except String RouteTarget :=
  match r.service, r.redirectTo with
  | some _, some _ => .error (r.label ++ "'service' and 'redirect_to' are mutually exclusive")
  | none, none => .error (r.label ++ "exactly one of 'service'/'redirect_to' is required")
  | some name, none => serviceTarget services r name
  | none, some redirectTo => redirectTarget r redirectTo

def routeEntry (services : List ServiceToml) (r : RouteToml) : Except String RouteEntry :=
  (routeTarget services r).map fun target => ⟨r.host, r.path, target⟩

def buildRouteEntries (services : List ServiceToml) (routes : List RouteToml) :
    Except String (List RouteEntry) :=
  routes.mapM (routeEntry services)

/-! ## Match entries -/

/-- The address of the host of a service, if one is declared. -/
def parseHostIp (p : Parsers) (s : ServiceToml) : Except String (Option Ipv4Addr) :=
  match s.hostIp with
  | none => .ok none
  | some ip =>
    match p.ipv4 ip with
    | some a => .ok (some a)
    | none => .error ("service '" ++ s.name ++ "': invalid host_ip '" ++ ip ++ "'")

/-- The match entry of a service, if it has a key. -/
def matchEntry (p : Parsers) (s : ServiceToml) : Except String (Option MatchEntry) := do
  let hostIp ← parseHostIp p s
  if s.dockerContainer.isNone && s.processPath.isNone then return none
  else match s.port with
    | none => throw ("service '" ++ s.name ++
        "': has a host-match key (docker_container/process_path) but no 'port'")
    | some port => return some ⟨s.name, port, s.dockerContainer, s.processPath, hostIp⟩

def buildMatchEntries (p : Parsers) (services : List ServiceToml) :
    Except String (List MatchEntry) :=
  (services.mapM (matchEntry p)).map List.reduceOption

/-! ## The map of services -/

/-- The ports of the services that declare one. -/
def peerPorts (services : List ServiceToml) : Dict String UInt16 :=
  services.foldl (fun m s => match s.port with
    | some port => m.insert s.name port
    | none => m) ∅

def ServiceToml.mentions (s : ServiceToml) : List String := s.proxyDependencies.flatten ++ s.backends

def addTrigger (ports : Dict String UInt16) (service : String) (triggers : Dict UInt16 String)
    (peer : String) : Except String (Dict UInt16 String) :=
  match (ports.lookup peer).filter (· ≠ 0) with
  | none => .error ("service '" ++ service ++ "': backend peer '" ++ peer ++
      "' must declare a nonzero port")
  | some port =>
    match triggers.lookup port with
    | some previous => .error ("service '" ++ service ++ "': backend peers '" ++ previous ++
        "' and '" ++ peer ++ "' both use port " ++ toString port)
    | none => .ok (triggers.insert port peer)

/-- The check of the protocol and the port of a service. -/
def checkListenPort (s : ServiceToml) : Except String Unit :=
  match s.protocolOrHttp, s.listenPort with
  | .http, some _ => .error ("service '" ++ s.name ++
      "': 'listen_port' is only valid for protocol \"tcp\"/\"udp\", not \"http\"")
  | .tcp, none | .udp, none => .error ("service '" ++ s.name ++
      "': protocol \"tcp\"/\"udp\" requires 'listen_port'")
  | _, _ => .ok ()

/-- What a service declares, once it is checked. -/
def declare (p : Parsers) (ports : Dict String UInt16) (s : ServiceToml) :
    Except String ServiceDecl := do
  if s.pausable && s.dockerContainer.isNone then
    throw ("service '" ++ s.name ++ "': pausable requires docker_container")
  checkListenPort s
  let egressPolicy ← s.egressFilter.validate p .egress s.name
  let ingressPolicy ← s.ingressFilter.validate p .ingress s.name
  if ingressPolicy ≠ .none ∧ s.timeout.isNone then
    throw ("service '" ++ s.name ++ "': ingress traffic filter requires a proxy-reachable service " ++
      "(set a 'timeout')")
  let triggers ← s.backends.foldlM (addTrigger ports s.name) ∅
  return ⟨s.proxyDependencies, triggers, s.timeout, s.maxNetworks, s.protocolOrHttp, s.listenPort,
    egressPolicy, ingressPolicy, s.pausable⟩

/-- `services_map`: names that are mentioned come first, and declarations replace them. -/
def servicesMap (p : Parsers) (services : List ServiceToml) :
    Except String (Dict String ServiceDecl) := do
  if services.any fun s => s.backends.any p.isBlank then
    throw "Backend trigger peer must not be empty"
  let mentioned := (services.flatMap ServiceToml.mentions).foldl
    (fun (m : Dict String ServiceDecl) name => m.insert name placeholder) ∅
  services.foldlM (fun m s => return m.insert s.name (← declare p (peerPorts services) s)) mentioned

structure ParsedStack where
  services : Dict String ServiceDecl
  matchEntries : List MatchEntry
  routes : List RouteEntry
  deriving DecidableEq

def validateStack (p : Parsers) (services : List ServiceToml) (routes : List RouteToml) :
    Except String ParsedStack := do
  let matchEntries ← buildMatchEntries p services
  let routeEntries ← buildRouteEntries services routes
  let map ← servicesMap p services
  return ⟨map, matchEntries, routeEntries⟩

end Nullnet.Config
