import Nullnet.Proxy.Routes
import Nullnet.Proxy.UdpRelay

/-! # HTTP requests and TCP connections

The callbacks of one HTTP request: `request_filter` first, then `upstream_peer` once for each attempt to
reach the upstream, and `logging` at the end. They share a context and make calls to the control service.
A TCP connection makes its calls in one function. -/

namespace Nullnet.Proxy

open Nullnet.Lib

/-- What the proxy reads of a request and its session. -/
structure Request where
  /-- The `Host` header, if there is one, and its text, if it is one. -/
  hostHeader : Option (Option Text)
  uriHost : Option Text
  uri : Text
  path : Text
  query : Option Text
  /-- The address of the client, if there is one, and its IP, if it has one. -/
  clientAddr : Option (Option String)

structure ProxyCtx where
  serviceName : Option String := none
  forwardPath : Option Text := none
  counted : Bool := false
  clientIp : Option String := none

/-- The connection that a request holds. -/
def ProxyCtx.guards (ctx : ProxyCtx) : List ConnectionGuard :=
  if ctx.counted then
    match ctx.serviceName, ctx.clientIp with
    | some serviceName, some clientIp => [⟨serviceName, clientIp⟩]
    | _, _ => []
  else []

structure NullnetProxy where
  routes : RouteTable
  hasCert : Text → Bool
  tls : Bool
  isIp : String → Bool

structure Response where
  status : ℕ
  location : Option Text

namespace Request

def ingressRawHost (r : Request) : Option Text := r.hostHeader.join.or r.uriHost

def ingressHost (r : Request) : Option Text := r.ingressRawHost.map (·.takeWhile (· ≠ ':'))

def ingressClientIp (r : Request) : Option String := r.clientAddr.join

/-- The host that `upstream_peer` reads, without what follows its last colon. -/
def upstreamHost (r : Request) : Option Text :=
  (r.hostHeader.getD r.uriHost).map fun host =>
    if ':' ∈ host then ((host.reverse.dropWhile (· ≠ ':')).tail).reverse else host

end Request

namespace NullnetProxy

/-- `https_redirect_url` for the port 443. -/
def httpsRedirectUrl (r : Request) : Text :=
  "https://".toList ++ (r.hostHeader.join.getD []).takeWhile (· ≠ ':') ++ r.uri

/-- The ingress check of `request_filter`. -/
def ingressCheck (r : Request) (ctx : ProxyCtx) (answer : Answer) : List Call :=
  match ctx.serviceName, r.ingressClientIp with
  | some service, some clientIp => [.checkIngress ⟨service, clientIp⟩ answer]
  | _, _ => []

/-- `request_filter` after it has routed the request: the calls, and the response if the request ends
here. -/
def admitRequest (p : NullnetProxy) (r : Request) (ctx : ProxyCtx) (answer : Answer) :
    ProxyCtx × List Call × Option Response :=
  (ctx, ingressCheck r ctx answer,
    if ingressCheck r ctx answer ≠ [] ∧ answer = .deny then some ⟨403, none⟩
    else if !p.tls && p.hasCert ((r.hostHeader.join.getD []).takeWhile (· ≠ ':')) then
      some ⟨301, some (httpsRedirectUrl r)⟩
    else none)

def requestFilter (p : NullnetProxy) (r : Request) (answer : Answer) :
    ProxyCtx × List Call × Option Response :=
  match r.ingressHost with
  | none => p.admitRequest r {} answer
  | some host =>
    match p.routes.resolve host r.path with
    | .matched (.redirect redirectTo status preservePath preserveQuery suffix) =>
      ({}, [], some ⟨status, some (resolveRedirectTarget redirectTo suffix preservePath preserveQuery
        r.hostHeader.join r.query p.tls)⟩)
    | .notFound => ({}, [], some ⟨404, none⟩)
    | .matched (.backend serviceName forwardPath) =>
      p.admitRequest r { serviceName := some serviceName, forwardPath :=
        if forwardPath ≠ r.path then some forwardPath else none } answer
    | .fallback => p.admitRequest r { serviceName := some (String.ofList host) } answer

/-- The service and the client of a lookup; nothing is looked up without a host or an address. -/
def lookupGuard (r : Request) (ctx : ProxyCtx) : Option ConnectionGuard :=
  r.upstreamHost.bind fun url => r.clientAddr.join.map fun clientIp =>
    ⟨ctx.serviceName.getD (String.ofList url), clientIp⟩

/-- `upstream_peer`: the context and the calls. -/
def upstreamPeer (p : NullnetProxy) (r : Request) (ctx : ProxyCtx) (reply : Reply) :
    ProxyCtx × List Call :=
  match lookupGuard r ctx with
  | none => (ctx, [])
  | some g =>
    if !(resolveUpstream p.isIp reply).isOk then (ctx, [.proxy g reply])
    else if ctx.counted then (ctx, [.proxy g reply, .proxyConnectionClosed g])
    else ({ ctx with
      counted := true, clientIp := some g.clientIp, serviceName := some g.serviceName },
      [.proxy g reply])

def upstreamPeers (p : NullnetProxy) (r : Request) (ctx : ProxyCtx) : List Reply → ProxyCtx × List Call
  | [] => (ctx, [])
  | reply :: replies =>
    let (ctx₁, calls) := p.upstreamPeer r ctx reply
    let (ctx₂, calls') := p.upstreamPeers r ctx₁ replies
    (ctx₂, calls ++ calls')

def logging (ctx : ProxyCtx) : List Call := ctx.guards.map .proxyConnectionClosed

/-- A request up to `logging`. -/
def proxied (p : NullnetProxy) (r : Request) (answer : Answer) (replies : List Reply) :
    ProxyCtx × List Call :=
  match p.requestFilter r answer with
  | (ctx, calls, some _) => (ctx, calls)
  | (ctx, calls, none) => ((p.upstreamPeers r ctx replies).1, calls ++ (p.upstreamPeers r ctx replies).2)

def serve (p : NullnetProxy) (r : Request) (answer : Answer) (replies : List Reply) : List Call :=
  (p.proxied r answer replies).2 ++ logging (p.proxied r answer replies).1

/-! ## The check comes first -/

variable {p : NullnetProxy} {r : Request} {ctx : ProxyCtx} {answer : Answer} {g : ConnectionGuard}
  {reply : Reply}

theorem proxy_notMem_logging : .proxy g reply ∉ logging ctx := by simp [logging]

theorem proxy_notMem_ingressCheck : .proxy g reply ∉ ingressCheck r ctx answer := by
  unfold ingressCheck
  split <;> simp

theorem guard_of_upstreamPeers {replies : List Reply} {service : String}
    (hs : ctx.serviceName = some service) (h : .proxy g reply ∈ (p.upstreamPeers r ctx replies).2) :
    g.serviceName = service ∧ r.ingressClientIp = some g.clientIp := by
  induction replies generalizing ctx with
  | nil => simp [upstreamPeers] at h
  | cons reply' replies ih =>
    simp only [upstreamPeers, upstreamPeer, List.mem_append] at h
    cases hg : lookupGuard r ctx with
    | none =>
      simp only [hg, List.not_mem_nil, false_or] at h
      exact ih hs h
    | some g' =>
      have hg' : g'.serviceName = service ∧ r.ingressClientIp = some g'.clientIp := by
        simp only [lookupGuard, Option.bind_eq_some_iff, Option.map_eq_some_iff] at hg
        obtain ⟨url, -, clientIp, hc, rfl⟩ := hg
        exact ⟨by simp [hs], hc⟩
      simp only [hg] at h
      rcases h with h | h
      · have : g = g' := by split_ifs at h <;> simp_all
        exact this ▸ hg'
      · refine ih ?_ h
        split_ifs <;> simp [hs, hg'.1]

theorem upstreamPeers_of_noHost (h : r.ingressHost = none) (replies : List Reply) :
    (p.upstreamPeers r ctx replies).2 = [] := by
  have hnone : r.upstreamHost = none := by
    simp only [Request.ingressHost, Request.ingressRawHost, Option.map_eq_none_iff,
      Option.or_eq_none_iff] at h
    rw [Request.upstreamHost, Option.map_eq_none_iff]
    rcases hh : r.hostHeader with - | - | text <;> simp_all
  induction replies generalizing ctx with
  | nil => rfl
  | cons reply replies ih => simp [upstreamPeers, upstreamPeer, lookupGuard, hnone, ih]

/-- A request ends before the check, or goes on with a service if it has a host. -/
theorem requestFilter_cases (p : NullnetProxy) (r : Request) (answer : Answer) :
    (∃ response, p.requestFilter r answer = ({}, [], some response)) ∨
      ∃ ctx, p.requestFilter r answer = p.admitRequest r ctx answer ∧ ctx.counted = false ∧
        (ctx.serviceName.isSome ∨ r.ingressHost = none) := by
  unfold requestFilter
  split
  · rename_i hhost
    exact .inr ⟨{}, rfl, rfl, .inr hhost⟩
  · split
    · exact .inl ⟨_, rfl⟩
    · exact .inl ⟨_, rfl⟩
    · exact .inr ⟨_, rfl, rfl, .inl rfl⟩
    · exact .inr ⟨_, rfl, rfl, .inl rfl⟩

/-- A request ends before `upstream_peer`, or nobody has denied it. -/
theorem proxied_cases (p : NullnetProxy) (r : Request) (answer : Answer) (replies : List Reply) :
    p.proxied r answer replies = ({}, []) ∨
      ∃ ctx, ctx.counted = false ∧ (p.proxied r answer replies = (ctx, ingressCheck r ctx answer) ∨
        p.proxied r answer replies = ((p.upstreamPeers r ctx replies).1,
          ingressCheck r ctx answer ++ (p.upstreamPeers r ctx replies).2) ∧
        (ingressCheck r ctx answer ≠ [] → answer ≠ .deny) ∧
        (ctx.serviceName.isSome ∨ r.ingressHost = none)) := by
  rcases requestFilter_cases p r answer with ⟨response, hf⟩ | ⟨ctx, hf, hcounted, hctx⟩
  · exact .inl (by rw [proxied, hf])
  · refine .inr ⟨ctx, hcounted, ?_⟩
    rcases hadmit : (p.admitRequest r ctx answer).2.2 with - | response
    · have hpair : p.admitRequest r ctx answer = (ctx, ingressCheck r ctx answer, none) :=
        Prod.ext rfl (Prod.ext rfl hadmit)
      refine .inr ⟨by rw [proxied, hf, hpair], ?_, hctx⟩
      rintro hne rfl
      simp [admitRequest, hne] at hadmit
    · have hpair : p.admitRequest r ctx answer = (ctx, ingressCheck r ctx answer, some response) :=
        Prod.ext rfl (Prod.ext rfl hadmit)
      exact .inl (by rw [proxied, hf, hpair])

/-- **A service is looked up for a client only after the ingress check for the two, and not if it was
denied.** -/
theorem checked_before_proxy (replies : List Reply) {before after : List Call}
    (h : p.serve r answer replies = before ++ .proxy g reply :: after) :
    .checkIngress g answer ∈ before ∧ answer ≠ .deny := by
  have hmem : .proxy g reply ∈ (p.proxied r answer replies).2 := by
    have : .proxy g reply ∈ p.serve r answer replies := by simp [h]
    simpa [serve, proxy_notMem_logging] using this
  rcases proxied_cases p r answer replies with hp | ⟨ctx, -, hp | ⟨hp, hdeny, hctx⟩⟩
  · simp [hp] at hmem
  · simp [hp, proxy_notMem_ingressCheck] at hmem
  · simp only [hp, List.mem_append, proxy_notMem_ingressCheck, false_or] at hmem
    rcases hctx with hsome | hnone
    · obtain ⟨service, hs⟩ := Option.isSome_iff_exists.mp hsome
      obtain ⟨rfl, hc⟩ := guard_of_upstreamPeers hs hmem
      have hcheck : ingressCheck r ctx answer = [.checkIngress g answer] := by
        simp [ingressCheck, hs, hc]
      rw [serve, hp, hcheck] at h
      rcases before with - | ⟨c, before⟩
      · simp at h
      · simp only [List.cons_append, List.cons.injEq] at h
        exact ⟨by simp [h.1], hdeny (by simp [hcheck])⟩
    · simp [upstreamPeers_of_noHost hnone] at hmem

/-- A request for the host `web`. -/
def getWeb : Request :=
  ⟨some (some "web:80".toList), none, "/".toList, "/".toList, none, some (some "198.51.100.7")⟩

/-- A listener without routes. -/
def bare : NullnetProxy := ⟨⟨∅⟩, fun _ => false, true, (· = "10.0.0.2")⟩

/-- The second lookup of a request, after one that has failed. -/
theorem checked_before_proxy_web : ∃ before after,
    bare.serve getWeb .allow [.error .failed, .response "10.0.0.2" 80] =
      before ++ .proxy ⟨"web", "198.51.100.7"⟩ (.response "10.0.0.2" 80) :: after ∧
    .checkIngress ⟨"web", "198.51.100.7"⟩ .allow ∈ before := by
  have h : bare.serve getWeb .allow [.error .failed, .response "10.0.0.2" 80] =
      [.checkIngress _ .allow, .proxy _ (.error .failed)] ++
        .proxy _ (.response "10.0.0.2" 80) :: [.proxyConnectionClosed _] := rfl
  exact ⟨_, _, h, (checked_before_proxy _ h).1⟩

/-! ## Connections are closed once -/

variable {isIp : String → Bool} {calls : List Call} {held held' : Multiset ConnectionGuard} {c : Call}

/-- The books of a request: once a connection is open, one stays open. -/
structure Ahead (isIp : String → Bool) (calls : List Call) (held : Multiset ConnectionGuard) : Prop where
  balanced : Balanced isIp calls held
  first : held = 0 → closed calls = 0
  ahead : ∀ pre, pre <+: calls → opened pre ≠ 0 → (closed pre).card < (opened pre).card

namespace Ahead

theorem nil : Ahead isIp [] 0 := ⟨rfl, fun _ => rfl, by simp [opened]⟩

theorem snoc (h : Ahead isIp calls held) (hb : Balanced isIp (calls ++ [c]) held')
    (hf : held' = 0 → closed (calls ++ [c]) = 0) : Ahead isIp (calls ++ [c]) held' := by
  refine ⟨hb, hf, fun pre hpre hne => ?_⟩
  rcases List.prefix_concat_iff.mp hpre with rfl | hpre
  · by_cases h0 : held' = 0
    · rw [hf h0]
      exact Multiset.card_pos.mpr hne
    · have := Multiset.card_pos.mpr h0
      rw [hb, Multiset.card_add, Multiset.card_add]
      omega
  · exact h.ahead pre hpre hne

theorem check (h : Ahead isIp calls held) (g : ConnectionGuard) (answer : Answer) :
    Ahead isIp (calls ++ [.checkIngress g answer]) held :=
  h.snoc (h.balanced.check answer) fun h0 => by
    rw [closed_append, h.first h0]
    rfl

theorem lookup (h : Ahead isIp calls held) (g : ConnectionGuard) (reply : Reply) :
    Ahead isIp (calls ++ [.proxy g reply])
      (if (resolveUpstream isIp reply).isOk then held + {g} else held) := by
  refine h.snoc (h.balanced.lookup reply) fun h0 => ?_
  have hheld : held = 0 := by
    split_ifs at h0 with hok
    · exact absurd (add_comm held {g} ▸ h0) Multiset.cons_ne_zero
    · exact h0
  rw [closed_append, h.first hheld]
  rfl

theorem retry (h : Ahead isIp calls (held + {g})) (h0 : held ≠ 0) :
    Ahead isIp (calls ++ [.proxyConnectionClosed g]) held := by
  have hb : Balanced isIp (calls ++ [g].map .proxyConnectionClosed) held := h.balanced.drop
  exact h.snoc hb fun h => absurd h h0

theorem upstreamPeer (r : Request) (reply : Reply) (h : Ahead p.isIp calls ctx.guards)
    (hc : ctx.counted → ctx.guards ≠ []) :
    Ahead p.isIp (calls ++ (p.upstreamPeer r ctx reply).2) (p.upstreamPeer r ctx reply).1.guards ∧
      ((p.upstreamPeer r ctx reply).1.counted → (p.upstreamPeer r ctx reply).1.guards ≠ []) := by
  unfold NullnetProxy.upstreamPeer
  split
  · simpa using ⟨h, hc⟩
  · rename_i g _
    have hl := h.lookup g reply
    by_cases hok : (resolveUpstream p.isIp reply).isOk
    · rw [if_pos hok] at hl
      simp only [hok, Bool.not_true, Bool.false_eq_true, if_false]
      split_ifs with hcount
      · have hr := hl.retry (by simpa using hc hcount)
        exact ⟨by simpa using hr, hc⟩
      · have hguards : ctx.guards = [] := by simp [ProxyCtx.guards, hcount]
        rw [hguards] at hl
        exact ⟨by simpa [ProxyCtx.guards] using hl, by simp [ProxyCtx.guards]⟩
    · rw [if_neg hok] at hl
      simpa [hok] using ⟨hl, hc⟩

theorem upstreamPeers {replies : List Reply} (h : Ahead p.isIp calls ctx.guards)
    (hc : ctx.counted → ctx.guards ≠ []) :
    Ahead p.isIp (calls ++ (p.upstreamPeers r ctx replies).2) (p.upstreamPeers r ctx replies).1.guards := by
  induction replies generalizing ctx calls with
  | nil => simpa [NullnetProxy.upstreamPeers] using h
  | cons reply replies ih =>
    obtain ⟨hstep, hc'⟩ := h.upstreamPeer r reply hc
    simpa [NullnetProxy.upstreamPeers] using ih hstep hc'

theorem proxied (p : NullnetProxy) (r : Request) (answer : Answer) (replies : List Reply) :
    Ahead p.isIp (p.proxied r answer replies).2 (p.proxied r answer replies).1.guards := by
  have hstart : ∀ ctx : ProxyCtx, ctx.counted = false →
      ctx.guards = [] ∧ Ahead p.isIp (ingressCheck r ctx answer) ctx.guards := by
    intro ctx hctx
    have hguards : ctx.guards = [] := by simp [ProxyCtx.guards, hctx]
    refine ⟨hguards, ?_⟩
    rw [hguards, ingressCheck]
    split
    · exact nil.check _ _
    · exact nil
  rcases proxied_cases p r answer replies with hp | ⟨ctx, hctx, hp | ⟨hp, -⟩⟩
  · rw [hp]
    exact nil
  · rw [hp]
    exact (hstart ctx hctx).2
  · rw [hp]
    exact (hstart ctx hctx).2.upstreamPeers (by simp [hctx])

end Ahead

end NullnetProxy

end Nullnet.Proxy
