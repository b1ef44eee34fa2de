import Mathlib.Data.List.Induction
import ObsBeacon.Lib.Runs

/-! The "route streaming through Beacon" toggle: the profile's streaming service is replaced
by one of another type, made from what the current one reports. -/
namespace ObsBeacon.DiagnosticsDock

/-- The values of `enum obs_service_connect_info` that are asked for. -/
inductive ConnectInfo where
  | serverUrl | streamKey | username | password
  deriving DecidableEq, Repr

/-- The string items of an `obs_data_t`, the last one set first. -/
abbrev Settings := List (String × String)

def Settings.setString (settings : Settings) (name val : String) : Settings :=
  (name, val) :: settings

/-- `obs_data_get_string`: an absent item is read as empty. -/
def Settings.getString (settings : Settings) (name : String) : String :=
  (settings.lookup name).getD ""

/-- `struct beacon_service`. -/
structure BeaconService where
  server : String
  key : String
  deriving DecidableEq, Repr

def beaconServiceUpdate (settings : Settings) : BeaconService where
  server := settings.getString "server"
  key := settings.getString "key"

def beaconServiceConnectInfo (s : BeaconService) : ConnectInfo → Option String
  | .serverUrl => some s.server
  | .streamKey => some s.key
  | _ => none

/-- An `obs_service_t`: its type and its `get_connect_info`, `none` for a null pointer. -/
structure StreamService where
  type : String
  connectInfo : ConnectInfo → Option String

/-- `init_connect`: what `dstr_copy` leaves of one connect info in the output. -/
def connectRead (svc : Option StreamService) (info : ConnectInfo) : String :=
  (svc.bind (·.connectInfo info)).getD ""

/-- What OBS's own service type `rtmp_custom` reports, given its settings. -/
abbrev RtmpCustom := Settings → ConnectInfo → Option String

/-- The settings item in which `rtmp_custom` stores a connect info. -/
def ConnectInfo.item : ConnectInfo → String
  | .serverUrl => "server"
  | .streamKey => "key"
  | .username => "username"
  | .password => "password"

/-- `rtmp_custom` reports its stored server and key, and nothing that is not stored. -/
structure ReportsStored (rtmpCustom : RtmpCustom) : Prop where
  server : ∀ settings, rtmpCustom settings .serverUrl = some (settings.getString "server")
  key : ∀ settings, rtmpCustom settings .streamKey = some (settings.getString "key")
  stored : ∀ settings info, ∀ v ∈ rtmpCustom settings info, v = settings.getString info.item

variable (rtmpCustom : RtmpCustom)

/-- `obs_service_create` for the two types the toggle uses. -/
def createService (type : String) (settings : Settings) : StreamService where
  type := type
  connectInfo :=
    if type = "beacon_service" then beaconServiceConnectInfo (beaconServiceUpdate settings)
    else rtmpCustom settings

/-- The frontend's streaming service, the one saved in the profile, and `routeCheck_`. -/
structure Profile where
  service : Option StreamService
  saved : Option StreamService
  routeChecked : Bool := false
  log : List String := []

/-- A call of `onToggleRoute`, with what `obs_frontend_streaming_active` returns and whether
`obs_service_create` succeeds. -/
structure ToggleCall where
  enabled : Bool
  streaming : Bool
  created : Bool
  deriving DecidableEq, Repr

def ToggleCall.type (call : ToggleCall) : String :=
  if call.enabled then "beacon_service" else "rtmp_custom"

/-- The settings the new service is made from. -/
def carriedSettings (cur : Option StreamService) : Settings :=
  let server := cur.bind (·.connectInfo .serverUrl)
  let key := cur.bind (·.connectInfo .streamKey)
  let settings := Settings.setString [] "server" (server.getD "")
  let settings := settings.setString "key" (key.getD "")
  settings.setString "service" "Beacon"

def onToggleRoute (p : Profile) (call : ToggleCall) : Profile :=
  if call.streaming then
    { p with
      routeChecked := !call.enabled
      log := p.log ++ ["[obs-beacon] cannot change Beacon routing while streaming"] }
  else if call.created then
    let svc := createService rtmpCustom call.type (carriedSettings p.service)
    { p with
      service := some svc
      saved := some svc
      log := p.log ++ ["[obs-beacon] Beacon routing " ++ (if call.enabled then "ON" else "OFF") ++
        " (service='" ++ call.type ++ "')"] }
  else p

/-- The check box emits `toggled` after it has changed. -/
def click (p : Profile) (call : ToggleCall) : Profile :=
  onToggleRoute rtmpCustom { p with routeChecked := call.enabled } call

/-- The call replaces the service. -/
def ToggleCall.TakesEffect (call : ToggleCall) : Prop :=
  call.streaming = false ∧ call.created = true

instance (call : ToggleCall) : Decidable call.TakesEffect := inferInstanceAs (Decidable (_ ∧ _))

/-- What a sequence of calls leads to: server and key are read as before; user name and
password survive only where no call takes effect or none was reported, and are empty after
one that does; the last call that takes effect decides the type. -/
structure RouteOutcome (p q : Profile) (calls : List ToggleCall) : Prop where
  server : connectRead q.service .serverUrl = connectRead p.service .serverUrl
  key : connectRead q.service .streamKey = connectRead p.service .streamKey
  credentials : ∀ info ∈ [ConnectInfo.username, .password],
    (connectRead q.service info = connectRead p.service info ↔
      (∀ call ∈ calls, ¬ call.TakesEffect) ∨ connectRead p.service info = "")
  emptied : (∃ call ∈ calls, call.TakesEffect) →
    ∀ info ∈ [ConnectInfo.username, .password], connectRead q.service info = ""
  kept : (∀ call ∈ calls, ¬ call.TakesEffect) → q.service = p.service ∧ q.saved = p.saved
  replaced : ∀ call ∈ (calls.filter fun call => call.TakesEffect).getLast?,
    q.service.map StreamService.type = some call.type ∧ q.saved = q.service

/-- A call without effect changes neither the service nor the profile. -/
def InertUnlessEffective (p : Profile) (call : ToggleCall) : Prop :=
  ¬ call.TakesEffect →
    (click rtmpCustom p call).service = p.service ∧ (click rtmpCustom p call).saved = p.saved

section Reports
variable {rtmpCustom} (h : ReportsStored rtmpCustom)
include h

/-- Both types report the server and the key they were made with, and those were carried. -/
theorem ReportsStored.carried_of_create (call : ToggleCall) (cur : Option StreamService)
    {info : ConnectInfo} (hinfo : info ∈ [ConnectInfo.serverUrl, .streamKey]) :
    connectRead (some (createService rtmpCustom call.type (carriedSettings cur))) info =
      connectRead cur info := by
  have hcarried : (carriedSettings cur).getString info.item = connectRead cur info := by
    simp only [List.mem_cons, List.not_mem_nil, or_false] at hinfo
    rcases hinfo with rfl | rfl <;> rfl
  rw [← hcarried]
  simp only [List.mem_cons, List.not_mem_nil, or_false] at hinfo
  cases henabled : call.enabled with
  | true =>
    rcases hinfo with rfl | rfl <;>
      simp [connectRead, createService, ToggleCall.type, henabled, beaconServiceConnectInfo,
        beaconServiceUpdate, ConnectInfo.item]
  | false =>
    rcases hinfo with rfl | rfl <;>
      simp [connectRead, createService, ToggleCall.type, henabled, h.server, h.key,
        ConnectInfo.item]

/-- Neither type reports a user name or a password that was not put in the settings. -/
theorem ReportsStored.credentials_of_create (call : ToggleCall) (cur : Option StreamService)
    {info : ConnectInfo} (hinfo : info ∈ [ConnectInfo.username, .password]) :
    connectRead (some (createService rtmpCustom call.type (carriedSettings cur))) info = "" := by
  have hempty : (carriedSettings cur).getString info.item = "" := by
    simp only [List.mem_cons, List.not_mem_nil, or_false] at hinfo
    rcases hinfo with rfl | rfl <;> rfl
  cases henabled : call.enabled with
  | true =>
    simp only [List.mem_cons, List.not_mem_nil, or_false] at hinfo
    rcases hinfo with rfl | rfl <;>
      simp [connectRead, createService, ToggleCall.type, henabled, beaconServiceConnectInfo]
  | false =>
    cases hreport : rtmpCustom (carriedSettings cur) info with
    | none => simp [connectRead, createService, ToggleCall.type, henabled, hreport]
    | some v =>
      have hv := h.stored (carriedSettings cur) info v hreport
      simp [connectRead, createService, ToggleCall.type, henabled, hreport, hv, hempty]

end Reports

theorem inertUnlessEffective (p : Profile) (call : ToggleCall) :
    InertUnlessEffective rtmpCustom p call := by
  intro h
  cases hstreaming : call.streaming with
  | true => simp [click, onToggleRoute, hstreaming]
  | false =>
    cases hcreated : call.created with
    | true => exact absurd ⟨hstreaming, hcreated⟩ h
    | false => simp [click, onToggleRoute, hstreaming, hcreated]

theorem click_of_takesEffect (p : Profile) {call : ToggleCall} (h : call.TakesEffect) :
    (click rtmpCustom p call).service =
        some (createService rtmpCustom call.type (carriedSettings p.service)) ∧
      (click rtmpCustom p call).saved = (click rtmpCustom p call).service := by
  obtain ⟨hstreaming, hcreated⟩ := h
  simp [click, onToggleRoute, hstreaming, hcreated]

theorem RouteOutcome.nil (p : Profile) : RouteOutcome p p [] where
  server := rfl
  key := rfl
  credentials := by simp
  emptied := by simp
  kept := fun _ => ⟨rfl, rfl⟩
  replaced := by simp

variable {rtmpCustom}

/-- One more call: without effect everything stays, with effect the new service carries the
server and the key of the old one and nothing else. -/
theorem RouteOutcome.step (h : ReportsStored rtmpCustom) {p q : Profile}
    {calls : List ToggleCall} (hrun : RouteOutcome p q calls) (call : ToggleCall) :
    RouteOutcome p (click rtmpCustom q call) (calls ++ [call]) := by
  by_cases heffect : call.TakesEffect
  · obtain ⟨hservice, hsaved⟩ := click_of_takesEffect rtmpCustom q heffect
    have hnone : ¬ ∀ c ∈ calls ++ [call], ¬ c.TakesEffect := fun hall =>
      hall call (by simp) heffect
    constructor
    · rw [hservice, h.carried_of_create call q.service (by simp), hrun.server]
    · rw [hservice, h.carried_of_create call q.service (by simp), hrun.key]
    · intro info hinfo
      rw [hservice, h.credentials_of_create call q.service hinfo]
      simp only [hnone, false_or]
      exact eq_comm
    · intro _ info hinfo
      rw [hservice]
      exact h.credentials_of_create call q.service hinfo
    · exact fun hall => absurd hall hnone
    · intro last hlast
      rw [List.filter_append, List.filter_singleton, decide_eq_true heffect, cond_true,
        List.getLast?_concat] at hlast
      obtain rfl := Option.some.inj hlast
      exact ⟨by rw [hservice]; rfl, hsaved⟩
  · obtain ⟨hservice, hsaved⟩ := inertUnlessEffective rtmpCustom q call heffect
    have hall : (∀ c ∈ calls ++ [call], ¬ c.TakesEffect) ↔ ∀ c ∈ calls, ¬ c.TakesEffect := by
      simp [or_imp, forall_and, heffect]
    constructor
    · rw [hservice, hrun.server]
    · rw [hservice, hrun.key]
    · intro info hinfo
      rw [hservice, hall]
      exact hrun.credentials info hinfo
    · intro hsome
      rw [hservice]
      apply hrun.emptied
      obtain ⟨c, hc, hceffect⟩ := hsome
      rcases List.mem_append.mp hc with hc | hc
      · exact ⟨c, hc, hceffect⟩
      · exact absurd (List.mem_singleton.mp hc ▸ hceffect) heffect
    · rw [hall, hservice, hsaved]
      exact hrun.kept
    · intro last hlast
      rw [List.filter_append, List.filter_singleton, decide_eq_false heffect, cond_false,
        List.append_nil] at hlast
      rw [hservice, hsaved]
      exact hrun.replaced last hlast

theorem outcome_of_clicks (h : ReportsStored rtmpCustom) (p : Profile)
    (calls : List ToggleCall) : RouteOutcome p (calls.foldl (click rtmpCustom) p) calls := by
  induction calls using List.reverseRecOn with
  | nil => exact RouteOutcome.nil p
  | append_singleton calls call ih =>
    rw [List.foldl_append]
    exact ih.step h call

/-- Every sequence of calls, from any profile. -/
theorem onToggleRoute_outcome (h : ReportsStored rtmpCustom) (p : Profile)
    (calls : List ToggleCall) :
    RouteOutcome p (calls.foldl (click rtmpCustom) p) calls ∧
      Runs.EveryStep (click rtmpCustom) (InertUnlessEffective rtmpCustom) p calls := by
  constructor
  · exact outcome_of_clicks h p calls
  · exact Runs.everyStep_of_forall fun s call _ => inertUnlessEffective rtmpCustom s call

/-- `rtmp_custom` as it reports settings in which no authentication is enabled. -/
def withoutAuth : RtmpCustom := fun settings => fun
  | .serverUrl => some (settings.getString "server")
  | .streamKey => some (settings.getString "key")
  | .username | .password => none

theorem withoutAuth_reportsStored : ReportsStored withoutAuth where
  server _ := rfl
  key _ := rfl
  stored settings info v hv := by
    cases info with
    | serverUrl | streamKey => exact (Option.some.inj hv).symm
    | username | password => cases hv

/-- A custom server that asks for a user name and a password. -/
def withCredentials : Profile where
  service := some
    { type := "rtmp_custom"
      connectInfo := fun
        | .serverUrl => some "rtmp://host/app"
        | .streamKey => some "key"
        | .username => some "user"
        | .password => some "secret" }
  saved := none

theorem onToggleRoute_outcome_onOff :
    ReportsStored withoutAuth ∧
      RouteOutcome withCredentials
        ([⟨true, false, true⟩, ⟨false, false, true⟩].foldl (click withoutAuth) withCredentials)
        [⟨true, false, true⟩, ⟨false, false, true⟩] :=
  ⟨withoutAuth_reportsStored, (onToggleRoute_outcome withoutAuth_reportsStored _ _).1⟩

/-- Routing switched on and off again leaves the type as it was and drops the user name. -/
theorem credentials_dropped :
    ReportsStored withoutAuth ∧
      connectRead withCredentials.service .username = "user" ∧
      connectRead ([⟨true, false, true⟩, ⟨false, false, true⟩].foldl (click withoutAuth)
        withCredentials).service .username = "" :=
  ⟨withoutAuth_reportsStored, rfl, rfl⟩

end ObsBeacon.DiagnosticsDock
