import Dcfpe.Lib.Machine
import Dcfpe.Service.DeviceList

/-!
# Creating the devices of a job

A `RemoteDPEDeviceCreator` asks one service for a device, and the manager has one for each service
(`dpe_list_`).  A device that was created goes to two lists: that of the manager, which the loss of
the device takes it off, and that of its creator, which nothing takes it off.  Once a second
`RefreshDeviceStateImpl` asks the services anew, and looks at the lists of the creators.

A device is a number here, the devices being numbered in the order they are created.  The answer of
a service is what the JSON reader makes of it, and whether a send succeeds is part of the step.
-/

set_option autoImplicit false

namespace Dcfpe

/-- A `ZMQResponse`: the error code, and the dictionary that was read from the data, if any. -/
structure CreateDeviceReply where
  errorCode : Int
  getString : Option (String → Option String)

/-- `receive_address`, `send_address` and `session` of a response to CreateDPEDevice. -/
structure DeviceAddress where
  receiveAddress : String
  sendAddress : String
  session : String
  deriving DecidableEq, Repr

/-- The checks of `HandleResponseImpl` before it makes a device. -/
def CreateDeviceReply.deviceAddress (rep : CreateDeviceReply) : Option DeviceAddress := do
  let get ← rep.getString
  guard ((← get "type") = "rsc")
  let _ ← get "src"
  let _ ← get "dest"
  guard ((← get "reply") = "CreateDPEDeviceResponse")
  guard ((← get "error_code") = "0")
  let receiveAddress ← get "receive_address"
  let sendAddress ← get "send_address"
  let session ← get "session"
  guard (receiveAddress ≠ "")
  guard (sendAddress ≠ "")
  some { receiveAddress, sendAddress, session }

/-- What becomes of a call of `CreateDPEDevice`. -/
inductive CreateOutcome where
  /-- The request cannot be written as JSON. -/
  | unwritten
  /-- `SendRequest` returns false; `CreateDPEDevice` does not look at it. -/
  | sendFails
  | sent
  deriving DecidableEq, Repr

/-- `creating_`, `server_address_` and `device_list_`.  `pending` is not in the code: how many of
its requests the ZMQ client is going to answer. -/
structure RemoteDPEDeviceCreator where
  isLocal : Bool
  serverAddress : String
  creating : Bool := false
  deviceList : List Nat := []
  pending : Nat := 0
  deriving DecidableEq, Repr

namespace RemoteDPEDeviceCreator

/-- `ZServerClient::CreateDPEDevice`: its result, and what it leaves pending. -/
def createDPEDevice (outcome : CreateOutcome) (c : RemoteDPEDeviceCreator) :
    Bool × RemoteDPEDeviceCreator :=
  match outcome with
  | .unwritten => (false, c)
  | .sendFails => (true, c)
  | .sent => (true, { c with pending := c.pending + 1 })

/-- `RequestNewDevice`, and the service that it asks, if it asks one. -/
def requestNewDevice (outcome : CreateOutcome) (c : RemoteDPEDeviceCreator) :
    Option String × RemoteDPEDeviceCreator :=
  if c.creating then (none, c)
  else
    let (ok, c) := c.createDPEDevice outcome
    (some c.serverAddress, if ok then { c with creating := true } else c)

end RemoteDPEDeviceCreator

/-- `dpe_list_` and `device_list_` of the manager; the other fields are not in the code. -/
structure DeviceFleet where
  dpeList : List RemoteDPEDeviceCreator := []
  deviceList : List Nat := []
  /-- The devices that were created, in order. -/
  created : List DeviceAddress := []
  /-- The services that were asked for a new device. -/
  asked : List String := []
  deriving DecidableEq, Repr

namespace DeviceFleet

def addRemoteDPEService (isLocal : Bool) (serverAddress : String) (m : DeviceFleet) :
    DeviceFleet :=
  if m.dpeList.any (·.serverAddress = serverAddress) then m
  else { m with dpeList := m.dpeList ++ [{ isLocal, serverAddress }] }

/-- `RefreshDeviceStateImpl` asks this creator. -/
def asks (c : RemoteDPEDeviceCreator) : Bool := !c.creating && c.deviceList.isEmpty

def refreshDeviceState (outcome : String → CreateOutcome) (m : DeviceFleet) : DeviceFleet :=
  let visits := m.dpeList.map fun c =>
    if asks c then c.requestNewDevice (outcome c.serverAddress) else (none, c)
  { m with dpeList := visits.map (·.2), asked := m.asked ++ visits.filterMap (·.1) }

/-- `HandleResponseImpl` of the creator at place `i`; `starts` is the result of the device's
`Start`. -/
def handleResponse (i : Nat) (rep : CreateDeviceReply) (starts : Bool) (c : RemoteDPEDeviceCreator)
    (m : DeviceFleet) : DeviceFleet :=
  let c := { c with pending := c.pending - 1 }
  let failed := { m with dpeList := m.dpeList.set i { c with creating := false } }
  if rep.errorCode ≠ 0 then failed
  else
    match rep.deviceAddress with
    | none => failed
    | some address =>
      if !starts then failed
      else
        -- `OnCreateRemoteDPEDeviceSucceed`, then the creator's own list
        { m with
          created := m.created ++ [address]
          deviceList := m.deviceList ++ [m.created.length]
          dpeList := m.dpeList.set i
            { c with deviceList := c.deviceList ++ [m.created.length], creating := false } }

inductive Event where
  | addService (isLocal : Bool) (serverAddress : String)
  | refresh (outcome : String → CreateOutcome)
  /-- The ZMQ client answers a request of the creator at place `i`. -/
  | response (i : Nat) (rep : CreateDeviceReply) (starts : Bool)
  /-- The device at place `k` of the manager's list is lost. -/
  | lose (k : Nat)

def step : Machine DeviceFleet Event
  | m, .addService isLocal serverAddress => some (m.addRemoteDPEService isLocal serverAddress)
  | m, .refresh outcome => some (m.refreshDeviceState outcome)
  | m, .response i rep starts =>
    match m.dpeList[i]? with
    | some c => if c.pending = 0 then none else some (m.handleResponse i rep starts c)
    | none => none
  | m, .lose k =>
    match m.deviceList[k]? with
    -- behind another device `OnDeviceLose` does not come back (`loseLoop`)
    | some device => (loseLoop device m.deviceList 1 0).map fun l => { m with deviceList := l }
    | none => none

/-! ## What the lists say about each other -/

/-- Each device that was created is in the list of one creator, which then has no other device and
is not creating one; and while a request is pending its creator has no device. -/
structure Inv (m : DeviceFleet) : Prop where
  address : (m.dpeList.map (·.serverAddress)).Nodup
  owner : ∀ d < m.created.length, ∃ c ∈ m.dpeList, c.deviceList = [d] ∧ c.creating = false
  single : ∀ c ∈ m.dpeList, c.deviceList = [] ∨
    c.pending = 0 ∧ ∃ d < m.created.length, c.deviceList = [d] ∧ c.creating = false
  pending : ∀ c ∈ m.dpeList, c.pending ≤ 1 ∧ (c.pending = 1 → c.creating = true)

theorem inv_empty : Inv {} := by
  refine ⟨List.nodup_nil, fun d hd => absurd hd (Nat.not_lt_zero d), fun c hc => ?_, fun c hc => ?_⟩
  · cases hc
  · cases hc

theorem requestNewDevice_eq {c : RemoteDPEDeviceCreator} (h : c.creating = false)
    (outcome : CreateOutcome) :
    c.requestNewDevice outcome =
      (some c.serverAddress,
        { c with
          creating := decide (outcome ≠ .unwritten)
          pending := if outcome = .sent then c.pending + 1 else c.pending }) := by
  obtain ⟨isLocal, address, creating, devices, pending⟩ := c
  obtain rfl : creating = false := h
  cases outcome <;> rfl

theorem asks_iff {c : RemoteDPEDeviceCreator} :
    asks c = true ↔ c.creating = false ∧ c.deviceList = [] := by
  rw [asks, Bool.and_eq_true, Bool.not_eq_true', List.isEmpty_iff]

/-- A creator after `RefreshDeviceStateImpl`. -/
def refreshed (outcome : String → CreateOutcome) (c : RemoteDPEDeviceCreator) :
    RemoteDPEDeviceCreator :=
  if asks c then (c.requestNewDevice (outcome c.serverAddress)).2 else c

/-- A creator is left alone, or it has no device and starts to create one. -/
theorem refreshed_cases (outcome : String → CreateOutcome) (c : RemoteDPEDeviceCreator) :
    refreshed outcome c = c ∧ asks c = false ∨ asks c = true ∧ refreshed outcome c =
      { c with
        creating := decide (outcome c.serverAddress ≠ .unwritten)
        pending := if outcome c.serverAddress = .sent then c.pending + 1 else c.pending } := by
  rw [refreshed]
  split
  · next h => exact .inr ⟨h, by rw [requestNewDevice_eq (asks_iff.1 h).1]⟩
  · next h => exact .inl ⟨rfl, by simpa using h⟩

theorem refreshed_serverAddress (outcome : String → CreateOutcome) (c : RemoteDPEDeviceCreator) :
    (refreshed outcome c).serverAddress = c.serverAddress := by
  rcases refreshed_cases outcome c with ⟨h, -⟩ | ⟨-, h⟩ <;> rw [h]

/-- Those that ask are asked. -/
theorem refreshDeviceState_eq (outcome : String → CreateOutcome) (m : DeviceFleet) :
    m.refreshDeviceState outcome =
      { m with
        dpeList := m.dpeList.map (refreshed outcome)
        asked := m.asked ++ (m.dpeList.filter asks).map (·.serverAddress) } := by
  have hcreators : (m.dpeList.map fun c => if asks c then
      c.requestNewDevice (outcome c.serverAddress) else (none, c)).map (·.2) =
        m.dpeList.map (refreshed outcome) := by
    rw [List.map_map]
    refine List.map_congr_left fun c _ => ?_
    simp only [Function.comp_apply, refreshed]
    split <;> rfl
  have hasked : (m.dpeList.map fun c => if asks c then
      c.requestNewDevice (outcome c.serverAddress) else (none, c)).filterMap (·.1) =
        (m.dpeList.filter asks).map (·.serverAddress) := by
    rw [List.filterMap_map, ← List.filterMap_eq_map, List.filterMap_filter]
    refine List.filterMap_congr fun c _ => ?_
    by_cases h : asks c = true
    · simp [h, requestNewDevice_eq (asks_iff.1 h).1]
    · simp [h]
  simp only [refreshDeviceState, hcreators, hasked]

theorem mem_refreshDeviceState {m : DeviceFleet} {outcome : String → CreateOutcome}
    {c : RemoteDPEDeviceCreator} : c ∈ (m.refreshDeviceState outcome).dpeList ↔
      ∃ c₀ ∈ m.dpeList, refreshed outcome c₀ = c := by
  rw [refreshDeviceState_eq, List.mem_map]

theorem Inv.addService {m : DeviceFleet} (h : m.Inv) (isLocal : Bool) (serverAddress : String) :
    (m.addRemoteDPEService isLocal serverAddress).Inv := by
  rw [addRemoteDPEService]
  split
  · exact h
  · next hnew =>
    have hfresh : serverAddress ∉ m.dpeList.map (·.serverAddress) := by
      intro hmem
      obtain ⟨c, hc, heq⟩ := List.mem_map.1 hmem
      exact hnew (List.any_eq_true.2 ⟨c, hc, by simpa using heq⟩)
    refine ⟨?_, fun d hd => ?_, fun c hc => ?_, fun c hc => ?_⟩
    · rw [List.map_append, List.nodup_append]
      refine ⟨h.address, List.pairwise_singleton _ _, ?_⟩
      rintro a ha b hb rfl
      rw [List.mem_singleton.1 hb] at ha
      exact hfresh ha
    · obtain ⟨c, hc, hown⟩ := h.owner d hd
      exact ⟨c, List.mem_append_left _ hc, hown⟩
    · rcases List.mem_append.1 hc with hc | hc
      · exact h.single c hc
      · rw [List.mem_singleton.1 hc]; exact .inl rfl
    · rcases List.mem_append.1 hc with hc | hc
      · exact h.pending c hc
      · rw [List.mem_singleton.1 hc]; exact ⟨Nat.zero_le 1, nofun⟩

theorem Inv.refresh {m : DeviceFleet} (h : m.Inv) (outcome : String → CreateOutcome) :
    (m.refreshDeviceState outcome).Inv := by
  refine ⟨?_, fun d hd => ?_, fun c hc => ?_, fun c hc => ?_⟩
  · have hmap : (m.refreshDeviceState outcome).dpeList.map (·.serverAddress) =
        m.dpeList.map (·.serverAddress) := by
      rw [refreshDeviceState_eq]
      refine List.map_map.trans (List.map_congr_left fun c _ => ?_)
      exact refreshed_serverAddress outcome c
    rw [hmap]
    exact h.address
  · -- a creator that has a device is left alone
    obtain ⟨c, hc, hdev, hcreating⟩ := h.owner d hd
    refine ⟨c, mem_refreshDeviceState.2 ⟨c, hc, ?_⟩, hdev, hcreating⟩
    rcases refreshed_cases outcome c with ⟨heq, -⟩ | ⟨hasks, -⟩
    · exact heq
    · rw [(asks_iff.1 hasks).2] at hdev
      cases hdev
  · obtain ⟨c₀, hc₀, rfl⟩ := mem_refreshDeviceState.1 hc
    rcases refreshed_cases outcome c₀ with ⟨heq, -⟩ | ⟨hasks, heq⟩
    · rw [heq]; exact h.single c₀ hc₀
    · rw [heq]; exact .inl (asks_iff.1 hasks).2
  · obtain ⟨c₀, hc₀, rfl⟩ := mem_refreshDeviceState.1 hc
    obtain ⟨hle, hone⟩ := h.pending c₀ hc₀
    rcases refreshed_cases outcome c₀ with ⟨heq, -⟩ | ⟨hasks, heq⟩
    · rw [heq]; exact ⟨hle, hone⟩
    · have hzero : c₀.pending = 0 := by
        by_contra hne
        cases (asks_iff.1 hasks).1.symm.trans (hone (by omega))
      rw [heq, hzero]
      dsimp only
      split
      · next hsent => exact ⟨Nat.le_refl 1, fun _ => by simp [hsent]⟩
      · exact ⟨Nat.zero_le 1, nofun⟩

/-- What a response makes of its creator and of the list of the manager. -/
theorem handleResponse_cases (i : Nat) (rep : CreateDeviceReply) (starts : Bool)
    (c : RemoteDPEDeviceCreator) (m : DeviceFleet) :
    m.handleResponse i rep starts c =
        { m with
          dpeList := m.dpeList.set i { c with pending := c.pending - 1, creating := false } } ∨
      ∃ address, m.handleResponse i rep starts c =
        { m with
          created := m.created ++ [address]
          deviceList := m.deviceList ++ [m.created.length]
          dpeList := m.dpeList.set i
            { c with
              pending := c.pending - 1
              deviceList := c.deviceList ++ [m.created.length]
              creating := false } } := by
  simp only [handleResponse]
  split
  · exact .inl rfl
  · split
    · exact .inl rfl
    · next address _ =>
      split
      · exact .inl rfl
      · exact .inr ⟨address, rfl⟩

theorem map_serverAddress_set {l : List RemoteDPEDeviceCreator} {i : Nat}
    {c : RemoteDPEDeviceCreator} (hc : l[i]? = some c) (c' : RemoteDPEDeviceCreator)
    (hsame : c'.serverAddress = c.serverAddress) :
    (l.set i c').map (·.serverAddress) = l.map (·.serverAddress) := by
  refine List.ext_getElem? fun j => ?_
  rw [List.getElem?_map, List.getElem?_map, List.getElem?_set]
  split
  · next hij =>
    subst hij
    obtain ⟨hlt, -⟩ := List.getElem?_eq_some_iff.1 hc
    rw [if_pos hlt, hc, Option.map_some, Option.map_some, hsame]
  · rfl

theorem mem_set_of_ne {l : List RemoteDPEDeviceCreator} {i : Nat}
    {c c₀ c' : RemoteDPEDeviceCreator} (hc : l[i]? = some c) (hmem : c₀ ∈ l) (hne : c₀ ≠ c) :
    c₀ ∈ l.set i c' := by
  obtain ⟨j, hj⟩ := List.getElem?_of_mem hmem
  refine List.mem_of_getElem? (i := j) ?_
  rw [List.getElem?_set_ne]
  · exact hj
  · rintro rfl
    exact hne (Option.some.inj (hj.symm.trans hc))

theorem Inv.response {m : DeviceFleet} (h : m.Inv) {i : Nat} {c : RemoteDPEDeviceCreator}
    (hc : m.dpeList[i]? = some c) (hpending : c.pending ≠ 0) (rep : CreateDeviceReply)
    (starts : Bool) : (m.handleResponse i rep starts c).Inv := by
  have hmem := List.mem_of_getElem? hc
  have hone := h.pending c hmem
  have hempty : c.deviceList = [] := (h.single c hmem).resolve_right fun hs => hpending hs.1
  have hzero : c.pending - 1 = 0 := by omega
  have haddress : ∀ c' : RemoteDPEDeviceCreator, c'.serverAddress = c.serverAddress →
      ((m.dpeList.set i c').map (·.serverAddress)).Nodup := fun c' hsame =>
    map_serverAddress_set hc c' hsame ▸ h.address
  -- the creator that is answered owns no device
  have howner : ∀ d < m.created.length, ∀ c', ∃ c₁ ∈ m.dpeList.set i c',
      c₁.deviceList = [d] ∧ c₁.creating = false := by
    intro d hd c'
    obtain ⟨c₁, hc₁, hdev, hcreating⟩ := h.owner d hd
    refine ⟨c₁, mem_set_of_ne hc hc₁ ?_, hdev, hcreating⟩
    rintro rfl
    rw [hempty] at hdev
    cases hdev
  rcases handleResponse_cases i rep starts c m with heq | ⟨address, heq⟩
  · rw [heq]
    refine ⟨haddress _ (by rfl), fun d hd => howner d hd _, fun c₁ hc₁ => ?_, fun c₁ hc₁ => ?_⟩
    · rcases List.mem_or_eq_of_mem_set hc₁ with hc₁ | rfl
      · exact h.single c₁ hc₁
      · exact .inl hempty
    · rcases List.mem_or_eq_of_mem_set hc₁ with hc₁ | rfl
      · exact h.pending c₁ hc₁
      · simp [hzero]
  · rw [heq]
    refine ⟨haddress _ (by rfl), fun d hd => ?_, fun c₁ hc₁ => ?_, fun c₁ hc₁ => ?_⟩
    · rw [List.length_append, List.length_singleton] at hd
      rcases Nat.lt_succ_iff_lt_or_eq.1 hd with hd | rfl
      · exact howner d hd _
      · obtain ⟨hlt, -⟩ := List.getElem?_eq_some_iff.1 hc
        exact ⟨_, List.mem_set hlt _, by simp [hempty], rfl⟩
    · rw [List.length_append, List.length_singleton]
      rcases List.mem_or_eq_of_mem_set hc₁ with hc₁ | rfl
      · refine (h.single c₁ hc₁).imp id ?_
        rintro ⟨hp, d, hd, hdev⟩
        exact ⟨hp, d, by omega, hdev⟩
      · exact .inr ⟨hzero, m.created.length, by omega, by simp [hempty], rfl⟩
    · rcases List.mem_or_eq_of_mem_set hc₁ with hc₁ | rfl
      · exact h.pending c₁ hc₁
      · simp [hzero]

theorem Inv.step {m t : DeviceFleet} (h : m.Inv) {e : Event}
    (hstep : DeviceFleet.step m e = some t) : t.Inv := by
  cases e with
  | addService isLocal serverAddress =>
    obtain rfl := Option.some.inj hstep
    exact h.addService isLocal serverAddress
  | refresh outcome =>
    obtain rfl := Option.some.inj hstep
    exact h.refresh outcome
  | response i rep starts =>
    simp only [DeviceFleet.step] at hstep
    split at hstep
    · next c hc =>
      split at hstep
      · cases hstep
      · next hpending =>
        obtain rfl := Option.some.inj hstep
        exact h.response hc hpending rep starts
    · cases hstep
  | lose k =>
    simp only [DeviceFleet.step] at hstep
    split at hstep
    · obtain ⟨l, -, rfl⟩ := Option.map_eq_some_iff.1 hstep
      exact ⟨h.address, h.owner, h.single, h.pending⟩
    · cases hstep

end DeviceFleet

end Dcfpe
