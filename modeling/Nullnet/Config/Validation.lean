import Nullnet.Config.Toml

/-! # What the checks of a stack accept

The checks of `validateStack` as conditions on the declared services and routes, without their messages. -/

namespace Nullnet.Config

open Nullnet.Lib

/-! ## Names -/

section

variable {services : List ServiceToml} {name : String}

theorem find?_name (hnames : (services.map (·.name)).Nodup) {s : ServiceToml} :
    services.find? (fun s => s.name = name) = some s ↔ s ∈ services ∧ s.name = name :=
  Dict.find?_key hnames

/-! ## Routes -/

def routable (services : List ServiceToml) (name : String) : Bool :=
  (services.find? fun s => s.name = name).any fun s => s.protocolOrHttp = .http && s.timeout.isSome

theorem routable_iff (hnames : (services.map (·.name)).Nodup) : routable services name ↔
      ∃ s ∈ services, s.name = name ∧ s.protocolOrHttp = .http ∧ s.timeout.isSome := by
  unfold routable
  simp only [Option.any_eq_true, find?_name hnames, and_assoc, Bool.and_eq_true, decide_eq_true_eq]

variable {r : RouteToml} {t : RouteTarget} {e : RouteEntry} {redirectTo : String}

theorem serviceTarget_eq_ok : serviceTarget services r name = .ok t ↔
    (r.preservePath || r.preserveQuery) = false ∧ routable services name ∧
      t = .service name r.stripPrefix := by
  unfold serviceTarget routable
  split_ifs with h
  · simp [h]
  · cases hfind : services.find? fun s => s.name = name with
    | none => simp
    | some s =>
      cases hproto : s.protocolOrHttp <;> cases htimeout : s.timeout <;>
        simp [h, hproto, htimeout, eq_comm]

theorem redirectTarget_eq_ok : redirectTarget r redirectTo = .ok t ↔
    r.stripPrefix = false ∧ r.redirectStatus.getD 301 ∈ redirectStatuses ∧
      t = .redirect redirectTo (r.redirectStatus.getD 301) r.preservePath r.preserveQuery := by
  unfold redirectTarget
  split_ifs with h
  · simp [h]
  · by_cases hstatus : r.redirectStatus.getD 301 ∈ redirectStatuses <;> simp [h, hstatus, eq_comm]

theorem routeTarget_service (hs : r.service = some name) (ht : r.redirectTo = none) :
    routeTarget services r = serviceTarget services r name := by
  rw [routeTarget, hs, ht]

theorem routeTarget_redirect (hs : r.service = none)
    (ht : r.redirectTo = some redirectTo) : routeTarget services r = redirectTarget r redirectTo := by
  rw [routeTarget, hs, ht]

/-- What the checks of a route ask of its target. -/
def RouteEntry.sound (services : List ServiceToml) (e : RouteEntry) : Prop :=
  match e.target with
  | .service name _ => routable services name
  | .redirect _ status _ _ => status ∈ redirectStatuses

theorem sound_of_routeEntry (h : routeEntry services r = .ok e) : e.sound services := by
  obtain ⟨t, ht, rfl⟩ := Checks.map_eq_ok.mp h
  unfold routeTarget at ht
  split at ht
  · cases ht
  · cases ht
  · obtain ⟨-, hroutable, rfl⟩ := serviceTarget_eq_ok.mp ht
    exact hroutable
  · obtain ⟨-, hstatus, rfl⟩ := redirectTarget_eq_ok.mp ht
    exact hstatus

theorem sound_of_buildRouteEntries {routes : List RouteToml} {entries : List RouteEntry}
    (h : buildRouteEntries services routes = .ok entries) : ∀ e ∈ entries, e.sound services := by
  intro e he
  obtain ⟨r, -, hr⟩ := Checks.exists_of_mem_right (Checks.mapM_eq_ok.mp h) he
  exact sound_of_routeEntry hr

end

end Nullnet.Config
