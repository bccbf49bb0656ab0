import Dcfpe.Service.Channels
import Dcfpe.Service.DeviceCreator
import Dcfpe.Service.NodeManager
import Mathlib.Data.List.Perm.Basic
import Mathlib.Data.List.Perm.Subperm
import Mathlib.Data.Option.Basic

/-!
# Creating a device in another process

A scheduler has a device created by a service.  `ZServerClient` writes a request, the `ZServer` of
the service reads it, has a device opened and writes the addresses of its channels into a reply, and
`RemoteDPEDeviceCreator` reads them from it and starts a `RemoteDPEDevice`, which receives where the
device sends and sends where the device receives.

The functions are those of `zserver_client.cc`, `zserver.cc`, `dpe_service.cc` and
`dpe_scheduler.cc`.  JSON is a parameter, and so are the physical address and what `%p` makes of the
pointer to a device.  In `step` come the requests of one scheduler to one service, which take their
time or get lost, those of others, and whatever else happens to the channels of the two processes;
`remote_connected` says that a `RemoteDPEDevice` belongs to a device that was opened, one to one,
and that the channels of the two lead to each other; `request_answered` says that a request leads to
one if nothing fails.
-/

set_option autoImplicit false

namespace Dcfpe

open AddressHelper

/-- A `DictionaryValue` of strings. -/
abbrev Strings := List (String × Bytes)

def setString (key : String) (value : Bytes) (d : Strings) : Strings :=
  (key, value) :: d.filter (·.1 ≠ key)

/-- `JSONWriter` and `JSONReader`. -/
structure JsonCodec where
  write : Strings → Option Bytes
  read : Bytes → Option JsonValue

/-- What a device tells of itself: `GetReceiveAddress`, `GetSendAddress` and `GetSession`. -/
structure DeviceInfo where
  receiveAddress : Bytes
  sendAddress : Bytes
  session : Bytes
  deriving DecidableEq, Repr

/-! ## The client -/

/-- The request of `ZServerClient::CreateDPEDevice` and, with another name, of `SayHello`. -/
def ZServerClient.request (name : String) (pa : Bytes) (ts : Int) (serverAddress : Bytes) :
    Strings :=
  setString "dest" serverAddress (setString "src" [] (setString "request" (ascii name)
    (setString "ts" (Decimal.bytes (toString ts).toList) (setString "pa" pa
      (setString "type" (ascii "rsc") [])))))

/-- Bytes as the text that has them as its characters. -/
def byteText (b : Bytes) : String := String.ofList (Decimal.chars b)

/-- The reply to a request, as `HandleResponseImpl` reads it. -/
def CreateDeviceReply.ofData (json : JsonCodec) (data : Bytes) : CreateDeviceReply where
  errorCode := 0
  getString :=
    match json.read data with
    | some (.dictionary strings) => some fun key => (strings.lookup key).map byteText
    | _ => none

def DeviceAddress.info (address : DeviceAddress) : DeviceInfo where
  receiveAddress := ascii address.receiveAddress
  sendAddress := ascii address.sendAddress
  session := ascii address.session

/-- The device that a reply tells of, if it does. -/
def toldDevice (json : JsonCodec) (data : Bytes) : Option DeviceInfo :=
  (CreateDeviceReply.ofData json data).deviceAddress.map (·.info)

/-! ## The server -/

namespace ZServer

section

variable (json : JsonCodec) (pa : Bytes) (session : Nat → Bytes) (ip : UInt32)

def info (e : Endpoint) : DeviceInfo where
  receiveAddress := e.receive.2
  sendAddress := (e.send.map (·.2)).getD []
  session := session e.id

/-- `DPEService::CreateDPEDevice`.  A device that has opened is the last endpoint. -/
def createDPEDevice (receive send : Nat → SocketOutcome) (s : Channels) :
    Option DeviceInfo × Channels :=
  let t := s.openDevice ip receive send
  (t.endpoints[s.endpoints.length]?.map (info session), t)

def handleCreateDPEDeviceRequest (receive send : Nat → SocketOutcome) (reply : Strings)
    (s : Channels) : Strings × Channels :=
  let reply := setString "reply" (ascii "CreateDPEDeviceResponse") reply
  match createDPEDevice session ip receive send s with
  | (none, s) => (setString "error_code" (ascii "-1") reply, s)
  | (some device, s) =>
    let reply := setString "receive_address" device.receiveAddress reply
    let reply := setString "send_address" device.sendAddress reply
    let reply := setString "session" device.session reply
    (setString "error_code" (ascii "0") reply, s)

def handleHelloRequest (reply : Strings) : Strings :=
  setString "error_code" (ascii "0") (setString "reply" (ascii "HelloResponse") reply)

/-- What `handle_request` does with a request that is a dictionary. -/
def respond (receive send : Nat → SocketOutcome) (strings reply : Strings) (s : Channels) :
    Strings × Channels :=
  if strings.lookup "type" ≠ some (ascii "rsc") then (reply, s)
  else
    match strings.lookup "src" with
    | none => (reply, s)
    | some src =>
      let reply := setString "dest" src reply
      match strings.lookup "dest" with
      | none => (reply, s)
      | some dest =>
        let reply := setString "src" dest reply
        let reply :=
          match strings.lookup "cookie" with
          | some cookie => setString "cookie" cookie reply
          | none => reply
        let reply :=
          match strings.lookup "ts" with
          | some ts => setString "ots" ts reply
          | none => reply
        match strings.lookup "request" with
        | none => (reply, s)
        | some request =>
          if request = ascii "CreateDPEDevice" then
            handleCreateDPEDeviceRequest session ip receive send reply s
          else if request = ascii "Hello" then (handleHelloRequest reply, s)
          else (reply, s)

/-- The reply before the request is read. -/
def blankReply (ts : Int) : Strings :=
  setString "ts" (Decimal.bytes (toString ts).toList) (setString "pa" pa
    (setString "error_code" (ascii "-1") (setString "type" (ascii "rsc") [])))

def handleRequest (ts : Int) (receive send : Nat → SocketOutcome) (data : Bytes) (s : Channels) :
    Bytes × Channels :=
  let (reply, s) :=
    match json.read data with
    | some (.dictionary strings) => respond session ip receive send strings (blankReply pa ts) s
    | _ => (blankReply pa ts, s)
  ((json.write reply).getD [], s)

end

end ZServer

/-! ## The two processes -/

/-- A service and a scheduler. -/
structure Creation where
  server : Channels := {}
  client : Channels := {}
  /-- On their way to the service, and back. -/
  requests : List Bytes := []
  replies : List Bytes := []
  /-- The devices that were opened for a request, by endpoint. -/
  opened : List (Nat × DeviceInfo) := []
  /-- The devices that the scheduler has started, and what it was told of each. -/
  remotes : List (Nat × DeviceInfo) := []
  deriving DecidableEq, Repr

namespace Creation

inductive Action where
  /-- `RequestNewDevice`, even while another request is pending. -/
  | request (ts : Int)
  | serve (k : Nat) (ts : Int) (receive send : Nat → SocketOutcome)
  /-- Another process has made a request. -/
  | foreign (data : Bytes) (ts : Int) (receive send : Nat → SocketOutcome)
  /-- `HandleResponseImpl`. -/
  | reply (k : Nat) (receive send : SocketOutcome)
  | loseRequest (k : Nat)
  | loseReply (k : Nat)
  | server (a : Channels.Action)
  | client (a : Channels.Action)

section

variable (json : JsonCodec) (pa serverPa : Bytes) (session : Nat → Bytes) (ip : UInt32)
  (serverAddress : Bytes)

/-- The service handles a request.  An empty reply is sent as four zero bytes. -/
def serve (ts : Int) (receive send : Nat → SocketOutcome) (data : Bytes) (s : Creation) :
    Bytes × Creation :=
  let (reply, server) :=
    ZServer.handleRequest json serverPa session ip ts receive send data s.server
  let devices := server.endpoints.drop s.server.endpoints.length
  (if reply = [] then [0, 0, 0, 0] else reply,
    { s with
      server := server
      opened := s.opened ++ devices.map fun e => (e.id, ZServer.info session e) })

/-- The scheduler starts a device that it was told of. -/
def startDevice (receive send : SocketOutcome) (device : DeviceInfo) (s : Creation) : Creation :=
  let client := s.client.startRemote device.sendAddress device.receiveAddress receive send
  let remotes := client.endpoints.drop s.client.endpoints.length
  { s with
    client := client
    remotes := s.remotes ++ remotes.map fun e => (e.id, device) }

def step : Machine Creation Action
  | s, .request ts =>
    match json.write (ZServerClient.request "CreateDPEDevice" pa ts serverAddress) with
    | some data => some { s with requests := s.requests ++ [data] }
    | none => some s
  | s, .serve k ts receive send =>
    s.requests[k]?.map fun data =>
      let (reply, s) := s.serve json serverPa session ip ts receive send data
      { s with requests := s.requests.eraseIdx k, replies := s.replies ++ [reply] }
  | s, .foreign data ts receive send =>
    some (s.serve json serverPa session ip ts receive send data).2
  | s, .reply k receive send =>
    s.replies[k]?.map fun data =>
      let s := { s with replies := s.replies.eraseIdx k }
      match toldDevice json data with
      | some device => s.startDevice receive send device
      | none => s
  | s, .loseRequest k => some { s with requests := s.requests.eraseIdx k }
  | s, .loseReply k => some { s with replies := s.replies.eraseIdx k }
  | s, .server a => (Channels.step s.server a).map fun server => { s with server := server }
  | s, .client a => (Channels.step s.client a).map fun client => { s with client := client }

end

end Creation

/-! ## What is read of a reply -/

theorem lookup_setString (key other : String) (value : Bytes) (d : Strings) :
    (setString key value d).lookup other = if other = key then some value else d.lookup other := by
  rw [setString, List.lookup_cons]
  by_cases hkey : other = key
  · simp [hkey]
  · rw [if_neg hkey, show (other == key) = false from beq_false_of_ne hkey]
    change (d.filter (·.1 ≠ key)).lookup other = d.lookup other
    induction d with
    | nil => rfl
    | cons p d ih =>
      by_cases hp : p.1 = key
      · rw [List.filter_cons_of_neg (by simpa using hp), ih, List.lookup_cons,
          show (other == p.1) = false from beq_false_of_ne (hp ▸ hkey)]
      · rw [List.filter_cons_of_pos (by simpa using hp), List.lookup_cons, List.lookup_cons, ih]

/-- The keys of the protocol. -/
def protocolKeys : List String :=
  ["type", "src", "dest", "cookie", "ts", "ots", "pa", "request", "reply", "error_code",
    "receive_address", "send_address", "session"]

/-- ASCII characters, and no NUL. -/
def PlainBytes (text : Bytes) : Prop := ∀ b ∈ text, 0 < b.toNat ∧ b.toNat < 128

instance (text : Bytes) : Decidable (PlainBytes text) := List.decidableBAll _ text

/-- A dictionary that JSON writes as it is: keys of the protocol, each once, and plain strings. -/
structure PlainStrings (d : Strings) : Prop where
  keys : (d.map (·.1)).Nodup
  known : ∀ p ∈ d, p.1 ∈ protocolKeys
  strings : ∀ p ∈ d, PlainBytes p.2

theorem plain_nil : PlainStrings [] :=
  ⟨List.nodup_nil, fun p hp => absurd hp (by simp), fun p hp => absurd hp (by simp)⟩

theorem PlainStrings.setString {d : Strings} (h : PlainStrings d) (key : String)
    (hkey : key ∈ protocolKeys) {value : Bytes} (hvalue : PlainBytes value) :
    PlainStrings (setString key value d) where
  keys := by
    rw [Dcfpe.setString, List.map_cons, List.nodup_cons]
    refine ⟨?_, h.keys.sublist (List.filter_sublist.map _)⟩
    simp only [List.mem_map, List.mem_filter, decide_eq_true_eq, not_exists, not_and]
    exact fun p hp => hp.2
  known p hp := by
    rcases List.mem_cons.1 hp with rfl | hp
    · exact hkey
    · exact h.known p (List.mem_of_mem_filter hp)
  strings p hp := by
    rcases List.mem_cons.1 hp with rfl | hp
    · exact hvalue
    · exact h.strings p (List.mem_of_mem_filter hp)

/-- What the code relies on: JSON gives back the plain strings that it writes, and four zero bytes
are none. -/
structure JsonCodec.Faithful (json : JsonCodec) : Prop where
  read_write : ∀ d data, PlainStrings d → json.write d = some data →
    ∃ strings, json.read data = some (.dictionary strings) ∧
      ∀ key, strings.lookup key = d.lookup key
  read_zeros : json.read [0, 0, 0, 0] = none

theorem ascii_byteText (b : Bytes) : ascii (byteText b) = b := by
  have hbyte : ∀ c : UInt8, UInt8.ofNat (Char.ofNat c.toNat).toNat = c := fun c => by
    have hvalid : c.toNat.isValidChar := .inl (Nat.lt_trans c.toNat_lt (by decide))
    have hc : (Char.ofNat c.toNat).toNat = c.toNat := by
      rw [Char.ofNat, dif_pos hvalid]
      rfl
    rw [hc, UInt8.ofNat_toNat]
  rw [ascii, byteText, String.toList_ofList, Decimal.chars, List.map_map]
  exact (List.map_congr_left fun c _ => hbyte c).trans (List.map_id b)

/-- The members that are asked for by name. -/
theorem byteText_ascii : byteText (ascii "rsc") = "rsc" ∧ byteText (ascii "0") = "0" ∧
    byteText (ascii "-1") = "-1" ∧
    byteText (ascii "CreateDPEDeviceResponse") = "CreateDPEDeviceResponse" := by
  decide +kernel

theorem byteText_eq_nil {b : Bytes} (h : byteText b = "") : b = [] := by
  rw [← ascii_byteText b, h]
  rfl

section

variable {json : JsonCodec} {data : Bytes} {strings : Strings}

/-- A reply with an error code of its own is no device. -/
theorem told_eq_none (hread : json.read data = some (.dictionary strings))
    (hcode : strings.lookup "error_code" = some (ascii "-1")) : toldDevice json data = none := by
  have hzero : byteText (ascii "-1") ≠ "0" := by rw [byteText_ascii.2.2.1]; decide
  simp [toldDevice, CreateDeviceReply.ofData, CreateDeviceReply.deviceAddress, hread, hcode, hzero]

/-- A reply that tells of a device. -/
structure Tells (strings : Strings) (device : DeviceInfo) : Prop where
  type : strings.lookup "type" = some (ascii "rsc")
  src : (strings.lookup "src").isSome
  dest : (strings.lookup "dest").isSome
  reply : strings.lookup "reply" = some (ascii "CreateDPEDeviceResponse")
  errorCode : strings.lookup "error_code" = some (ascii "0")
  receiveAddress : strings.lookup "receive_address" = some device.receiveAddress
  sendAddress : strings.lookup "send_address" = some device.sendAddress
  session : strings.lookup "session" = some device.session
  receiveAddress_ne : device.receiveAddress ≠ []
  sendAddress_ne : device.sendAddress ≠ []

theorem Tells.congr {d : Strings} {device : DeviceInfo} (h : Tells d device)
    (hlookup : ∀ key, strings.lookup key = d.lookup key) : Tells strings device where
  type := (hlookup _).trans h.type
  src := hlookup "src" ▸ h.src
  dest := hlookup "dest" ▸ h.dest
  reply := (hlookup _).trans h.reply
  errorCode := (hlookup _).trans h.errorCode
  receiveAddress := (hlookup _).trans h.receiveAddress
  sendAddress := (hlookup _).trans h.sendAddress
  session := (hlookup _).trans h.session
  receiveAddress_ne := h.receiveAddress_ne
  sendAddress_ne := h.sendAddress_ne

theorem Tells.told {device : DeviceInfo} (h : Tells strings device)
    (hread : json.read data = some (.dictionary strings)) : toldDevice json data = some device := by
  obtain ⟨hrsc, hok, -, hresponse⟩ := byteText_ascii
  obtain ⟨src, hsrc⟩ := Option.isSome_iff_exists.1 h.src
  obtain ⟨dest, hdest⟩ := Option.isSome_iff_exists.1 h.dest
  have hreceive : byteText device.receiveAddress ≠ "" :=
    fun heq => h.receiveAddress_ne (byteText_eq_nil heq)
  have hsend : byteText device.sendAddress ≠ "" :=
    fun heq => h.sendAddress_ne (byteText_eq_nil heq)
  simp [toldDevice, CreateDeviceReply.ofData, CreateDeviceReply.deviceAddress, hread, h.type, hsrc,
    hdest, h.reply, h.errorCode, h.receiveAddress, h.sendAddress, h.session, hrsc, hok, hresponse,
    hreceive, hsend, DeviceAddress.info, ascii_byteText]

end

/-! ## What opens in a process -/

/-- A channel that can be made is registered. -/
theorem MessageCenter.registerChannel_good (channelType : ChannelType) (address : Bytes)
    (m : MessageCenter) :
    ∃ socket center, m.registerChannel channelType address {} = (some socket, center) := by
  rw [registerChannel]
  split
  · exact ⟨_, _, rfl⟩
  · exact ⟨m.sockets,
      ({ m with sockets := m.sockets + 1 } : MessageCenter).push channelType (m.sockets, address),
      by simp⟩

namespace Channels

variable {s t : Channels}

theorem registerOwn_frame {channelType : ChannelType} {ip : UInt32} {outcome : Nat → SocketOutcome}
    {n : Nat} {channel : Option (Nat × Bytes)}
    (h : s.registerOwn channelType ip outcome n = (channel, t)) :
    t.endpoints = s.endpoints ∧ t.ids = s.ids ∧
      ∀ c ∈ channel, ∃ port, c.2 = makeZMQTCPAddress ip port := by
  induction n generalizing s with
  | zero =>
    obtain ⟨rfl, rfl⟩ := Prod.mk.inj h
    exact ⟨rfl, rfl, fun c hc => absurd hc (by simp)⟩
  | succ n ih =>
    rw [registerOwn] at h
    rcases hregister : s.center.registerChannel channelType
      (makeZMQTCPAddress ip (getNextAvailablePort s.nextAvailablePort).1) (outcome n) with
      ⟨_ | socket, center⟩
    · simp only [hregister] at h
      have hrest := ih h
      exact hrest
    · simp only [hregister] at h
      obtain ⟨rfl, rfl⟩ := Prod.mk.inj h
      exact ⟨rfl, rfl, fun c hc => ⟨_, congrArg Prod.snd (Option.some_inj.1 hc).symm⟩⟩

/-- The endpoints of a process after a step in which at most one has come: the ones before it, and
perhaps `e`. -/
def Opens (s t : Channels) (P : Endpoint → Prop) : Prop :=
  t.endpoints = s.endpoints ∧ t.ids = s.ids ∨
    ∃ e, t.endpoints = s.endpoints ++ [e] ∧ e.id = s.ids ∧ t.ids = s.ids + 1 ∧ P e

theorem openDevice_opens (ip : UInt32) (receive send : Nat → SocketOutcome) (s : Channels) :
    Opens s (s.openDevice ip receive send) fun e =>
      (∃ port, e.receive.2 = makeZMQTCPAddress ip port) ∧
        ∃ channel port, e.send = some channel ∧ channel.2 = makeZMQTCPAddress ip port := by
  rw [openDevice]
  rcases hreceive : s.registerOwn .sub ip receive 3 with ⟨_ | channel, t⟩
  · obtain ⟨hendpoints, hids, -⟩ := registerOwn_frame hreceive
    exact .inl ⟨hendpoints, hids⟩
  · obtain ⟨hendpoints, hids, hchannel⟩ := registerOwn_frame hreceive
    rcases hsend : t.registerOwn .pub ip send 3 with ⟨_ | sendChannel, u⟩
    · obtain ⟨hendpoints', hids', -⟩ := registerOwn_frame hsend
      simp only [hsend]
      exact .inl ⟨hendpoints'.trans hendpoints, hids'.trans hids⟩
    · obtain ⟨hendpoints', hids', hsendChannel⟩ := registerOwn_frame hsend
      obtain ⟨port, hport⟩ := hsendChannel _ rfl
      simp only [hsend]
      refine .inr ⟨{ id := u.ids, receive := channel, send := some sendChannel }, ?_,
        hids'.trans hids, ?_, hchannel _ rfl, sendChannel, port, rfl, hport⟩
      · rw [← hendpoints, ← hendpoints']
        rfl
      · rw [← hids, ← hids']
        rfl

theorem startRemote_opens (receiveAddress sendAddress : Bytes) (receive send : SocketOutcome)
    (s : Channels) : Opens s (s.startRemote receiveAddress sendAddress receive send) fun e =>
      e.receive.2 = receiveAddress ∧ e.send.map (·.2) = some sendAddress := by
  rw [startRemote]
  rcases s.center.registerChannel .sub receiveAddress receive with ⟨_ | socket, center⟩
  · exact .inl ⟨rfl, rfl⟩
  · rcases hsend : center.registerChannel .pub sendAddress send with ⟨_ | sendSocket, center'⟩
    · simp only [hsend]
      exact .inl ⟨rfl, rfl⟩
    · simp only [hsend]
      exact .inr ⟨_, rfl, rfl, rfl, rfl, rfl⟩

/-- With nothing that fails the loop gets a channel. -/
theorem registerOwn_good (channelType : ChannelType) (ip : UInt32) (n : Nat) (s : Channels) :
    ∃ channel t, s.registerOwn channelType ip (fun _ => {}) (n + 1) = (some channel, t) := by
  obtain ⟨socket, center, hregister⟩ := s.center.registerChannel_good channelType
    (makeZMQTCPAddress ip (getNextAvailablePort s.nextAvailablePort).1)
  rw [registerOwn]
  simp only [hregister]
  exact ⟨_, _, rfl⟩

theorem openDevice_good (ip : UInt32) (s : Channels) :
    (s.openDevice ip (fun _ => {}) fun _ => {}).endpoints ≠ s.endpoints := by
  obtain ⟨channel, t, hreceive⟩ := s.registerOwn_good .sub ip 2
  obtain ⟨sendChannel, u, hsend⟩ := t.registerOwn_good .pub ip 2
  rw [openDevice, hreceive]
  simp only [hsend]
  rw [← (registerOwn_frame hreceive).1, ← (registerOwn_frame hsend).1]
  simp [enter]

theorem startRemote_good (receiveAddress sendAddress : Bytes) (s : Channels) :
    ∃ e, (s.startRemote receiveAddress sendAddress {} {}).endpoints = s.endpoints ++ [e] ∧
      e.id = s.ids := by
  obtain ⟨socket, center, hreceive⟩ := s.center.registerChannel_good .sub receiveAddress
  obtain ⟨sendSocket, center', hsend⟩ := center.registerChannel_good .pub sendAddress
  rw [startRemote, hreceive]
  simp only [hsend]
  exact ⟨_, rfl, rfl⟩

/-- Those that were there keep what they have, and those that come have new ids. -/
def Later (s t : Channels) : Prop :=
  s.ids ≤ t.ids ∧ ∀ e ∈ t.endpoints, e ∈ s.endpoints ∨ s.ids ≤ e.id ∧ e.id < t.ids

theorem Opens.later {P : Endpoint → Prop} (h : Opens s t P) : Later s t := by
  rcases h with ⟨hendpoints, hids⟩ | ⟨e, hendpoints, hid, hids, -⟩
  · exact ⟨hids.ge, fun e he => .inl (hendpoints ▸ he)⟩
  · refine ⟨by omega, fun e' he' => ?_⟩
    rw [hendpoints, List.mem_append, List.mem_singleton] at he'
    rcases he' with he' | rfl
    · exact .inl he'
    · exact .inr ⟨hid.ge, by omega⟩

theorem later_step {a : Action} (hstep : step s a = some t) : Later s t := by
  rcases a with ⟨processId, receive⟩ | ⟨ip, receive, send⟩ |
    ⟨receiveAddress, sendAddress, receive, send⟩ | id <;> rw [← Option.some_inj.1 hstep]
  · rw [startService]
    rcases hreceive : s.registerOwn .sub (getProcessIP processId) receive 3 with ⟨_ | channel, u⟩
    · obtain ⟨hendpoints, hids, -⟩ := registerOwn_frame hreceive
      exact Opens.later (P := fun _ => True) (.inl ⟨hendpoints, hids⟩)
    · obtain ⟨hendpoints, hids, -⟩ := registerOwn_frame hreceive
      refine Opens.later (P := fun _ => True)
        (.inr ⟨{ id := u.ids, receive := channel }, ?_, hids, ?_, trivial⟩)
      · rw [← hendpoints]
        rfl
      · rw [← hids]
        rfl
  · exact (openDevice_opens ip receive send s).later
  · exact (startRemote_opens receiveAddress sendAddress receive send s).later
  · rw [close]
    split
    · exact ⟨Nat.le_refl _, fun e he => .inl he⟩
    · exact ⟨Nat.le_refl _, fun e he => .inl (List.mem_of_mem_filter he)⟩

/-- The ids are those that were given. -/
def Numbered (s : Channels) : Prop := ∀ e ∈ s.endpoints, e.id < s.ids

/-- An id was given, and the endpoint that has it, as long as there is one, is as `P` says. -/
def Assigned (s : Channels) (P : Endpoint → Prop) (i : Nat) : Prop :=
  i < s.ids ∧ ∀ e ∈ s.endpoints, e.id = i → P e

theorem Numbered.later (h : s.Numbered) (hlater : Later s t) : t.Numbered := fun e he => by
  rcases hlater.2 e he with he | ⟨-, hlt⟩
  · exact Nat.lt_of_lt_of_le (h e he) hlater.1
  · exact hlt

theorem Assigned.later {P : Endpoint → Prop} {i : Nat} (h : s.Assigned P i) (hlater : Later s t) :
    t.Assigned P i := by
  refine ⟨Nat.lt_of_lt_of_le h.1 hlater.1, fun e he hid => ?_⟩
  rcases hlater.2 e he with he | ⟨hle, -⟩
  · exact h.2 e he hid
  · exact absurd h.1 (Nat.not_lt.2 (hid ▸ hle))

/-- The one that comes has its id. -/
theorem assigned_last (h : s.Numbered) {P : Endpoint → Prop} {e : Endpoint}
    (hendpoints : t.endpoints = s.endpoints ++ [e]) (hid : e.id = s.ids) (hids : t.ids = s.ids + 1)
    (he : P e) : t.Assigned P e.id := by
  refine ⟨by omega, fun e' he' hid' => ?_⟩
  rw [hendpoints, List.mem_append, List.mem_singleton] at he'
  rcases he' with he' | rfl
  · exact absurd (h e' he') (by omega)
  · exact he

end Channels

/-! ## A request and its reply -/

theorem plain_empty : PlainBytes [] := List.forall_mem_nil _

theorem plain_decimal (ts : Int) : PlainBytes (Decimal.bytes (toString ts).toList) := by
  intro b hb
  have hdigit := Decimal.mem_bytes_toString hb
  omega

theorem plain_names : ∀ name ∈ ["rsc", "0", "-1", "CreateDPEDevice", "CreateDPEDeviceResponse"],
    PlainBytes (ascii name) := by
  decide +kernel

theorem plain_address (ip : UInt32) (port : Nat) : PlainBytes (makeZMQTCPAddress ip port) := by
  intro b hb
  have hbounds := mem_makeZMQTCPAddress hb
  exact ⟨by omega, hbounds.2⟩

theorem makeZMQTCPAddress_ne_nil (ip : UInt32) (port : Nat) : makeZMQTCPAddress ip port ≠ [] :=
  List.append_ne_nil_of_left_ne_nil (by decide) _

namespace ZServer

variable {pa serverPa serverAddress : Bytes} {session : Nat → Bytes} {ip : UInt32}
  {receive send : Nat → SocketOutcome} {strings reply : Strings} {s : Channels}

/-- The reply to a request of the client, before its device is opened. -/
def answering (serverAddress : Bytes) (ts : Int) (reply : Strings) : Strings :=
  setString "ots" (Decimal.bytes (toString ts).toList) (setString "src" serverAddress
    (setString "dest" [] reply))

theorem respond_request {ts : Int} (hrequest : ∀ key, strings.lookup key =
      (ZServerClient.request "CreateDPEDevice" pa ts serverAddress).lookup key) :
    respond session ip receive send strings reply s =
      handleCreateDPEDeviceRequest session ip receive send
        (answering serverAddress ts reply) s := by
  simp [respond, hrequest, ZServerClient.request, lookup_setString, answering]

/-- What is in the process after a request of the client, and what the reply is: no device has
opened and the reply has an error code, or the reply has the addresses of the device. -/
theorem handleCreateDPEDeviceRequest_cases (session : Nat → Bytes) (ip : UInt32)
    (receive send : Nat → SocketOutcome) (reply : Strings) (s : Channels) :
    let reply' := setString "reply" (ascii "CreateDPEDeviceResponse") reply
    let t := s.openDevice ip receive send
    (t.endpoints = s.endpoints ∧
      handleCreateDPEDeviceRequest session ip receive send reply s =
        (setString "error_code" (ascii "-1") reply', t)) ∨
    ∃ e port port', t.endpoints = s.endpoints ++ [e] ∧ e.id = s.ids ∧ t.ids = s.ids + 1 ∧
      (info session e).receiveAddress = makeZMQTCPAddress ip port ∧
      (info session e).sendAddress = makeZMQTCPAddress ip port' ∧
      handleCreateDPEDeviceRequest session ip receive send reply s =
        (setString "error_code" (ascii "0") (setString "session" (session e.id)
          (setString "send_address" (info session e).sendAddress
            (setString "receive_address" (info session e).receiveAddress reply'))), t) := by
  dsimp only
  rcases s.openDevice_opens ip receive send with ⟨hendpoints, -⟩ |
    ⟨e, hendpoints, hid, hids, ⟨port, hport⟩, channel, port', hsend, hport'⟩
  · refine .inl ⟨hendpoints, ?_⟩
    simp [handleCreateDPEDeviceRequest, createDPEDevice, hendpoints]
  · refine .inr ⟨e, port, port', hendpoints, hid, hids, hport, by simp [info, hsend, hport'], ?_⟩
    simp [handleCreateDPEDeviceRequest, createDPEDevice, hendpoints, info]

end ZServer

namespace Creation

section

variable {json : JsonCodec} {pa serverPa serverAddress : Bytes} {session : Nat → Bytes}
  {ip : UInt32}

/-- What the two processes put into their messages is plain. -/
structure Texts (pa serverPa serverAddress : Bytes) (session : Nat → Bytes) : Prop where
  pa : PlainBytes pa
  serverPa : PlainBytes serverPa
  serverAddress : PlainBytes serverAddress
  session : ∀ id, PlainBytes (session id)

theorem Texts.request (h : Texts pa serverPa serverAddress session) (ts : Int) :
    PlainStrings (ZServerClient.request "CreateDPEDevice" pa ts serverAddress) :=
  (((((plain_nil.setString "type" (by decide) (plain_names _ (by simp))).setString "pa"
    (by decide) h.pa).setString "ts" (by decide) (plain_decimal ts)).setString "request"
    (by decide) (plain_names _ (by simp))).setString "src" (by decide) plain_empty).setString
    "dest" (by decide) h.serverAddress

theorem Texts.reply (h : Texts pa serverPa serverAddress session) (ts ts' : Int) :
    PlainStrings (setString "reply" (ascii "CreateDPEDeviceResponse")
      (ZServer.answering serverAddress ts (ZServer.blankReply serverPa ts'))) :=
  (((((((plain_nil.setString "type" (by decide) (plain_names _ (by simp))).setString "error_code"
    (by decide) (plain_names _ (by simp))).setString "pa" (by decide) h.serverPa).setString "ts"
    (by decide) (plain_decimal ts')).setString "dest" (by decide) plain_empty).setString "src"
    (by decide) h.serverAddress).setString "ots" (by decide) (plain_decimal ts)).setString "reply"
    (by decide) (plain_names _ (by simp))

theorem told_zeros (hjson : json.Faithful) : toldDevice json [0, 0, 0, 0] = none := by
  simp [toldDevice, CreateDeviceReply.ofData, CreateDeviceReply.deviceAddress, hjson.read_zeros]

/-- What is sent for a reply that was written, or could not be. -/
def sent (written : Option Bytes) : Bytes :=
  if written.getD [] = [] then [0, 0, 0, 0] else written.getD []

/-- A reply that is sent is four zero bytes, or is read as it was written. -/
theorem sent_cases (hjson : json.Faithful) {d : Strings} (hd : PlainStrings d) :
    sent (json.write d) = [0, 0, 0, 0] ∨
      ∃ strings, json.read (sent (json.write d)) = some (.dictionary strings) ∧
        ∀ key, strings.lookup key = d.lookup key := by
  rcases hwrite : json.write d with _ | written
  · exact .inl rfl
  · rw [sent, Option.getD_some]
    by_cases hnil : written = []
    · exact .inl (if_pos hnil)
    · rw [if_neg hnil]
      exact .inr (hjson.read_write d written hd hwrite)

variable {s : Creation}

/-- What a service replies to the scheduler: an error code, or the device that it has opened. -/
theorem serve_reply (hjson : json.Faithful) (htexts : Texts pa serverPa serverAddress session)
    {data : Bytes} {ts ts' : Int} {receive send : Nat → SocketOutcome}
    (hdata : json.write (ZServerClient.request "CreateDPEDevice" pa ts serverAddress) =
      some data) {reply : Bytes} {t : Creation}
    (hserve : s.serve json serverPa session ip ts' receive send data = (reply, t)) :
    ∃ d, PlainStrings d ∧ reply = sent (json.write d) ∧
      ((s.server.openDevice ip receive send).endpoints = s.server.endpoints ∧
          d.lookup "error_code" = some (ascii "-1") ∨
        ∃ device, t.opened = s.opened ++ [(s.server.ids, device)] ∧ Tells d device) := by
  obtain ⟨strings, hread, hlookup⟩ := hjson.read_write _ _ (htexts.request ts) hdata
  have hplain := htexts.reply ts ts'
  rcases ZServer.handleCreateDPEDeviceRequest_cases session ip receive send
    (ZServer.answering serverAddress ts (ZServer.blankReply serverPa ts')) s.server with
    ⟨hendpoints, hcase⟩ | ⟨e, port, port', hendpoints, hid, -, hreceive, hsend, hcase⟩ <;>
    simp only [serve, ZServer.handleRequest, hread, ZServer.respond_request hlookup,
      hcase] at hserve <;> obtain ⟨rfl, rfl⟩ := Prod.mk.inj hserve
  · exact ⟨_, hplain.setString "error_code" (by decide) (plain_names "-1" (by simp)), rfl,
      .inl ⟨hendpoints, by rw [lookup_setString, if_pos rfl]⟩⟩
  · have hreceiveText : PlainBytes (ZServer.info session e).receiveAddress :=
      hreceive ▸ plain_address ip port
    have hsendText : PlainBytes (ZServer.info session e).sendAddress :=
      hsend ▸ plain_address ip port'
    have hfull := (((hplain.setString "receive_address" (by decide) hreceiveText).setString
      "send_address" (by decide) hsendText).setString "session" (by decide)
      (htexts.session e.id)).setString "error_code" (by decide) (plain_names "0" (by simp))
    refine ⟨_, hfull, rfl, .inr ⟨ZServer.info session e, by simp [hendpoints, hid], ?_⟩⟩
    exact
      { type := by simp [lookup_setString, ZServer.answering, ZServer.blankReply]
        src := by simp [lookup_setString, ZServer.answering]
        dest := by simp [lookup_setString, ZServer.answering]
        reply := by simp [lookup_setString]
        errorCode := by rw [lookup_setString, if_pos rfl]
        receiveAddress := by simp [lookup_setString]
        sendAddress := by simp [lookup_setString]
        session := by simp [lookup_setString, ZServer.info]
        receiveAddress_ne := hreceive ▸ makeZMQTCPAddress_ne_nil ip port
        sendAddress_ne := hsend ▸ makeZMQTCPAddress_ne_nil ip port' }

/-- What the scheduler is told by it. -/
theorem serve_told (hjson : json.Faithful) (htexts : Texts pa serverPa serverAddress session)
    {data : Bytes} {ts ts' : Int} {receive send : Nat → SocketOutcome}
    (hdata : json.write (ZServerClient.request "CreateDPEDevice" pa ts serverAddress) =
      some data) {reply : Bytes} {t : Creation}
    (hserve : s.serve json serverPa session ip ts' receive send data = (reply, t)) :
    toldDevice json reply = none ∨ ∃ device, t.opened = s.opened ++ [(s.server.ids, device)] ∧
      toldDevice json reply = some device := by
  obtain ⟨d, hd, rfl, hcase⟩ := serve_reply hjson htexts hdata hserve
  rcases sent_cases hjson hd with hzeros | ⟨strings, hread, hlookup⟩
  · exact .inl (hzeros ▸ told_zeros hjson)
  · rcases hcase with ⟨-, hcode⟩ | ⟨device, hopened, htells⟩
    · exact .inl (told_eq_none hread ((hlookup _).trans hcode))
    · exact .inr ⟨device, hopened, (htells.congr hlookup).told hread⟩

/-! ## Devices and those who were told of them -/

/-- The channels of a device, seen from the service. -/
def Opened (device : DeviceInfo) (e : Endpoint) : Prop :=
  e.receive.2 = device.receiveAddress ∧ e.send.map (·.2) = some device.sendAddress

/-- The channels of a device, seen from the scheduler. -/
def Started (device : DeviceInfo) (e : Endpoint) : Prop :=
  e.receive.2 = device.sendAddress ∧ e.send.map (·.2) = some device.receiveAddress

variable (json pa serverAddress session) in
/-- The requests are those of the scheduler; what replies tell of and what was started are devices
that were opened, each at most once; and each keeps its addresses as long as it is there. -/
structure Inv (s : Creation) : Prop where
  requests : ∀ data ∈ s.requests, ∃ ts,
    json.write (ZServerClient.request "CreateDPEDevice" pa ts serverAddress) = some data
  told : (s.replies.filterMap (toldDevice json) ++ s.remotes.map (·.2)).Subperm (s.opened.map (·.2))
  opened : ∀ d ∈ s.opened, d.2.session = session d.1 ∧ s.server.Assigned (Opened d.2) d.1
  remotes : ∀ r ∈ s.remotes, s.client.Assigned (Started r.2) r.1
  server : s.server.Numbered
  client : s.client.Numbered

theorem inv_empty : Inv json pa serverAddress session {} where
  requests data h := absurd h (by simp)
  told := .refl _
  opened d h := absurd h (by simp)
  remotes r h := absurd h (by simp)
  server e h := absurd h (by simp)
  client e h := absurd h (by simp)

variable (json serverPa session ip) in
theorem handleRequest_opens (ts : Int) (receive send : Nat → SocketOutcome) (data : Bytes)
    (s : Channels) :
    Channels.Opens s (ZServer.handleRequest json serverPa session ip ts receive send data s).2
      fun e => ∃ port port', e.receive.2 = makeZMQTCPAddress ip port ∧
        e.send.map (·.2) = some (makeZMQTCPAddress ip port') := by
  have hopens : Channels.Opens s (s.openDevice ip receive send) fun e =>
      ∃ port port', e.receive.2 = makeZMQTCPAddress ip port ∧
        e.send.map (·.2) = some (makeZMQTCPAddress ip port') := by
    rcases s.openDevice_opens ip receive send with hsame |
      ⟨e, hendpoints, hid, hids, ⟨port, hport⟩, channel, port', hsend, hport'⟩
    · exact .inl hsame
    · exact .inr ⟨e, hendpoints, hid, hids, port, port', hport, by simp [hsend, hport']⟩
  have hcreate : ∀ reply,
      (ZServer.handleCreateDPEDeviceRequest session ip receive send reply s).2 =
        s.openDevice ip receive send := by
    intro reply
    rcases ZServer.handleCreateDPEDeviceRequest_cases session ip receive send reply s with
      ⟨-, heq⟩ | ⟨_, _, _, -, -, -, -, -, heq⟩ <;> rw [heq]
  have hrespond : ∀ strings reply, Channels.Opens s
      (ZServer.respond session ip receive send strings reply s).2 fun e =>
        ∃ port port', e.receive.2 = makeZMQTCPAddress ip port ∧
          e.send.map (·.2) = some (makeZMQTCPAddress ip port') := by
    intro strings reply
    simp only [ZServer.respond]
    split
    · exact .inl ⟨rfl, rfl⟩
    split
    · exact .inl ⟨rfl, rfl⟩
    split
    · exact .inl ⟨rfl, rfl⟩
    split
    · exact .inl ⟨rfl, rfl⟩
    split
    · rw [hcreate]
      exact hopens
    split <;> exact .inl ⟨rfl, rfl⟩
  rcases hread : json.read data with _ | strings | _
  · simp only [ZServer.handleRequest, hread]
    exact .inl ⟨rfl, rfl⟩
  · simp only [ZServer.handleRequest, hread]
    exact hrespond strings _
  · simp only [ZServer.handleRequest, hread]
    exact .inl ⟨rfl, rfl⟩

/-- A request leaves what the service has, but for a device that it may have opened. -/
theorem Inv.serve (h : Inv json pa serverAddress session s) {ts : Int}
    {receive send : Nat → SocketOutcome} {data reply : Bytes} {t : Creation}
    (hserve : s.serve json serverPa session ip ts receive send data = (reply, t)) :
    Inv json pa serverAddress session t ∧ t.requests = s.requests ∧ t.replies = s.replies ∧
      t.remotes = s.remotes ∧ t.client = s.client := by
  have hopens := handleRequest_opens json serverPa session ip ts receive send data s.server
  rcases hhandle : ZServer.handleRequest json serverPa session ip ts receive send data s.server
    with ⟨written, server⟩
  rw [hhandle] at hopens
  simp only [Creation.serve, hhandle] at hserve
  obtain ⟨-, rfl⟩ := Prod.mk.inj hserve
  have hlater := hopens.later
  refine ⟨⟨h.requests, h.told.trans ?_, fun d hd => ?_, h.remotes, h.server.later hlater, h.client⟩,
    rfl, rfl, rfl, rfl⟩
  · rw [List.map_append]
    exact (List.sublist_append_left _ _).subperm
  · rcases List.mem_append.1 hd with hd | hd
    · exact ⟨(h.opened d hd).1, (h.opened d hd).2.later hlater⟩
    · rcases hopens with ⟨hendpoints, -⟩ | ⟨e, hendpoints, hid, hids, port, port', hreceive, hsend⟩
      · rw [hendpoints, List.drop_length] at hd
        exact absurd hd (by simp)
      · rw [hendpoints, List.drop_left] at hd
        obtain rfl := List.mem_singleton.1 hd
        refine ⟨rfl, Channels.assigned_last h.server hendpoints hid hids ⟨rfl, ?_⟩⟩
        simp [ZServer.info, hsend]

theorem Inv.startDevice (h : Inv json pa serverAddress session s) {device : DeviceInfo}
    {data : Bytes} (hdata : toldDevice json data = some device) {k : Nat}
    (hk : s.replies[k]? = some data) (receive send : SocketOutcome) :
    Inv json pa serverAddress session
      ({ s with replies := s.replies.eraseIdx k }.startDevice receive send device) := by
  have hopens := s.client.startRemote_opens device.sendAddress device.receiveAddress receive send
  have hlater := hopens.later
  -- the device of the reply is now one that was started
  have hperm : (device :: ((s.replies.eraseIdx k).filterMap (toldDevice json))).Perm
      (s.replies.filterMap (toldDevice json)) := by
    obtain ⟨hlt, hget⟩ := List.getElem?_eq_some_iff.1 hk
    have hperm := (List.getElem_cons_eraseIdx_perm hlt).filterMap (toldDevice json)
    rwa [hget, List.filterMap_cons_some hdata] at hperm
  refine ⟨h.requests, ?_, h.opened, fun r hr => ?_, h.server, h.client.later hlater⟩
  · refine List.Subperm.trans ?_ h.told
    refine List.Subperm.trans ?_ (hperm.append_right _).subperm
    rcases hopens with ⟨hendpoints, -⟩ | ⟨e, hendpoints, -⟩
    · simp only [Creation.startDevice, hendpoints, List.drop_length, List.map_nil, List.append_nil]
      exact (List.sublist_cons_self _ _).subperm
    · simp only [Creation.startDevice, hendpoints, List.drop_left, List.map_append, List.map_cons,
        List.map_nil]
      rw [← List.append_assoc]
      exact List.perm_append_comm.subperm
  · rcases List.mem_append.1 hr with hr | hr
    · exact (h.remotes r hr).later hlater
    · rcases hopens with ⟨hendpoints, -⟩ | ⟨e, hendpoints, hid, hids, hchannels⟩
      · rw [hendpoints, List.drop_length] at hr
        exact absurd hr (by simp)
      · rw [hendpoints, List.drop_left] at hr
        obtain rfl := List.mem_singleton.1 hr
        exact Channels.assigned_last h.client hendpoints hid hids hchannels

theorem inv_step (hjson : json.Faithful) (htexts : Texts pa serverPa serverAddress session)
    (s : Creation) (a : Action) (t : Creation) (h : Inv json pa serverAddress session s)
    (hstep : step json pa serverPa session ip serverAddress s a = some t) :
    Inv json pa serverAddress session t := by
  rcases a with ts | ⟨k, ts, receive, send⟩ | ⟨data, ts, receive, send⟩ | ⟨k, receive, send⟩ | k |
    k | a | a <;> simp only [step] at hstep
  · split at hstep
    · next data hwrite =>
      rw [← Option.some_inj.1 hstep]
      refine ⟨fun data' hdata' => ?_, h.told, h.opened, h.remotes, h.server, h.client⟩
      rcases List.mem_append.1 hdata' with hdata' | hdata'
      · exact h.requests data' hdata'
      · exact ⟨ts, List.mem_singleton.1 hdata' ▸ hwrite⟩
    · exact Option.some_inj.1 hstep ▸ h
  · -- the reply tells of no device, or of the one that has been opened
    obtain ⟨data, hk, rfl⟩ := Option.map_eq_some_iff.1 hstep
    obtain ⟨ts', hdata⟩ := h.requests data (List.mem_of_getElem? hk)
    rcases hserve : s.serve json serverPa session ip ts receive send data with ⟨reply, t⟩
    obtain ⟨ht, hrequests, hreplies, hremotes, -⟩ := h.serve hserve
    refine ⟨fun data' hdata' => ht.requests data' (List.mem_of_mem_eraseIdx hdata'), ?_, ht.opened,
      ht.remotes, ht.server, ht.client⟩
    rw [List.filterMap_append, hreplies, hremotes]
    rcases serve_told hjson htexts hdata hserve with hnone | ⟨device, hopened, htold⟩
    · have htold := ht.told
      rw [hreplies, hremotes] at htold
      rwa [List.filterMap_cons_none hnone, List.filterMap_nil, List.append_nil]
    · rw [hopened, List.map_append, List.filterMap_cons_some htold, List.filterMap_nil,
        List.append_assoc]
      refine List.Subperm.trans (List.perm_append_comm.append_left _).subperm ?_
      rw [← List.append_assoc]
      exact (List.subperm_append_right _).2 h.told
  · rw [← Option.some_inj.1 hstep]
    exact (h.serve rfl).1
  · obtain ⟨data, hk, rfl⟩ := Option.map_eq_some_iff.1 hstep
    split
    · next device hdata => exact h.startDevice hdata hk receive send
    · exact ⟨h.requests, (((List.eraseIdx_sublist _ _).filterMap _).append_right _).subperm.trans
        h.told, h.opened, h.remotes, h.server, h.client⟩
  · rw [← Option.some_inj.1 hstep]
    exact ⟨fun data hdata => h.requests data (List.mem_of_mem_eraseIdx hdata), h.told, h.opened,
      h.remotes, h.server, h.client⟩
  · rw [← Option.some_inj.1 hstep]
    exact ⟨h.requests, (((List.eraseIdx_sublist _ _).filterMap _).append_right _).subperm.trans
      h.told, h.opened, h.remotes, h.server, h.client⟩
  · obtain ⟨server, hserver, rfl⟩ := Option.map_eq_some_iff.1 hstep
    have hlater := Channels.later_step hserver
    exact ⟨h.requests, h.told, fun d hd => ⟨(h.opened d hd).1, (h.opened d hd).2.later hlater⟩,
      h.remotes, h.server.later hlater, h.client⟩
  · obtain ⟨client, hclient, rfl⟩ := Option.map_eq_some_iff.1 hstep
    have hlater := Channels.later_step hclient
    exact ⟨h.requests, h.told, h.opened, fun r hr => (h.remotes r hr).later hlater, h.server,
      h.client.later hlater⟩

/-- **A `RemoteDPEDevice` is connected to a device**, one that was opened for a request, of which no
other was told: it has the session of the device, and as long as the two are there, each sends to
where the other receives.  Nothing of this depends on what becomes of the messages, on what others
request, or on what else happens in the two processes. -/
theorem remote_connected (hjson : json.Faithful) (htexts : Texts pa serverPa serverAddress session)
    {actions : List Action}
    (hrun : (step json pa serverPa session ip serverAddress).run {} actions = some s) :
    (s.remotes.map (·.2)).Subperm (s.opened.map (·.2)) ∧
      ∀ r ∈ s.remotes, ∃ i, (i, r.2) ∈ s.opened ∧ r.2.session = session i ∧
        ∀ e ∈ s.client.endpoints, e.id = r.1 → ∀ d ∈ s.server.endpoints, d.id = i →
          e.send.map (·.2) = some d.receive.2 ∧ d.send.map (·.2) = some e.receive.2 := by
  have h : Inv json pa serverAddress session s :=
    Machine.run_invariant (inv_step hjson htexts) inv_empty hrun
  have hremotes := (List.sublist_append_right _ _).subperm.trans h.told
  refine ⟨hremotes, fun r hr => ?_⟩
  obtain ⟨d, hd, hdevice⟩ := List.mem_map.1 (hremotes.subset (List.mem_map_of_mem hr))
  obtain ⟨hsession, hopened⟩ := h.opened d hd
  refine ⟨d.1, by rwa [← hdevice], hdevice ▸ hsession, fun e he hid e' he' hid' => ?_⟩
  obtain ⟨hreceive, hsend⟩ := (h.remotes r hr).2 e he hid
  obtain ⟨hreceive', hsend'⟩ := hopened.2 e' he' hid'
  rw [← hdevice] at hreceive hsend
  exact ⟨by rw [hsend, hreceive'], by rw [hsend', hreceive]⟩

/-- **A request gets a device**, whatever has happened before, if it is handled, its reply can be
written and comes back, and no channel fails. -/
theorem request_answered (hjson : json.Faithful)
    (htexts : Texts pa serverPa serverAddress session) {actions : List Action}
    (hrun : (step json pa serverPa session ip serverAddress).run {} actions = some s) {k : Nat}
    {data : Bytes} (hk : s.requests[k]? = some data) {ts : Int}
    (hwritten : (s.serve json serverPa session ip ts (fun _ => {}) (fun _ => {}) data).1 ≠
      [0, 0, 0, 0]) :
    ∃ t device, (step json pa serverPa session ip serverAddress).run s
        [.serve k ts (fun _ => {}) (fun _ => {}), .reply s.replies.length {} {}] = some t ∧
      t.opened = s.opened ++ [(s.server.ids, device)] ∧
      t.remotes = s.remotes ++ [(s.client.ids, device)] := by
  have h : Inv json pa serverAddress session s :=
    Machine.run_invariant (inv_step hjson htexts) inv_empty hrun
  obtain ⟨ts', hdata⟩ := h.requests _ (List.mem_of_getElem? hk)
  rcases hserve : s.serve json serverPa session ip ts (fun _ => {}) (fun _ => {}) data
    with ⟨reply, t⟩
  obtain ⟨-, -, hreplies, hremotes, hclient⟩ := h.serve hserve
  rw [hserve] at hwritten
  rcases serve_reply hjson htexts hdata hserve with
    ⟨d, hd, rfl, ⟨hsame, -⟩ | ⟨device, hopened, htells⟩⟩
  · exact absurd hsame (s.server.openDevice_good ip)
  rcases sent_cases hjson hd with hzeros | ⟨strings, hread, hlookup⟩
  · exact absurd hzeros hwritten
  have htold := (htells.congr hlookup).told hread
  have hserveStep : step json pa serverPa session ip serverAddress s
      (.serve k ts (fun _ => {}) (fun _ => {})) =
      some { t with
        requests := t.requests.eraseIdx k, replies := t.replies ++ [sent (json.write d)] } := by
    simp only [step, hk, Option.map_some, hserve]
  obtain ⟨e, hendpoints, hid⟩ :=
    s.client.startRemote_good device.sendAddress device.receiveAddress
  have hreplyStep : step json pa serverPa session ip serverAddress
      { t with requests := t.requests.eraseIdx k, replies := t.replies ++ [sent (json.write d)] }
      (.reply s.replies.length {} {}) =
      some (startDevice {} {} device { t with
        requests := t.requests.eraseIdx k
        replies := (t.replies ++ [sent (json.write d)]).eraseIdx s.replies.length }) := by
    simp only [step, ← hreplies, List.getElem?_concat_length, Option.map_some, htold]
  refine ⟨_, device, Machine.run_cons.2 ⟨_, hserveStep, Machine.run_cons.2 ⟨_, hreplyStep, rfl⟩⟩,
    hopened, ?_⟩
  simp [startDevice, hremotes, hclient, hendpoints, hid]

end

/-! ## A device is created -/

def sampleAddress : Bytes := ascii "tcp://10.0.0.1:5678"

def sampleSession (_ : Nat) : Bytes := ascii "00A1B2C3"

def sampleRequest : Strings :=
  ZServerClient.request "CreateDPEDevice" (ascii "3fa9") 1 sampleAddress

def sampleReply : Strings :=
  [("error_code", ascii "0"), ("session", ascii "00A1B2C3"),
    ("send_address", ascii "tcp://10.0.0.1:20001"),
    ("receive_address", ascii "tcp://10.0.0.1:20000"),
    ("reply", ascii "CreateDPEDeviceResponse"), ("ots", ascii "1"), ("src", sampleAddress),
    ("dest", []), ("ts", ascii "2"), ("pa", ascii "77c0"), ("type", ascii "rsc")]

def requestText : Bytes :=
  ascii "\x7b\"dest\":\"tcp://10.0.0.1:5678\",\"pa\":\"3fa9\"," ++
    ascii "\"request\":\"CreateDPEDevice\",\"src\":\"\",\"ts\":\"1\",\"type\":\"rsc\"\x7d"

def replyText : Bytes :=
  ascii "\x7b\"dest\":\"\",\"error_code\":\"0\",\"ots\":\"1\",\"pa\":\"77c0\"," ++
    ascii "\"receive_address\":\"tcp://10.0.0.1:20000\",\"reply\":\"CreateDPEDeviceResponse\"," ++
    ascii "\"send_address\":\"tcp://10.0.0.1:20001\",\"session\":\"00A1B2C3\"," ++
    ascii "\"src\":\"tcp://10.0.0.1:5678\",\"ts\":\"2\",\"type\":\"rsc\"\x7d"

/-- JSON, as far as it is used here. -/
def sampleJson : JsonCodec where
  write d :=
    if d = sampleRequest then some requestText
    else if d = sampleReply then some replyText
    else none
  read data :=
    if data = requestText then some (.dictionary sampleRequest)
    else if data = replyText then some (.dictionary sampleReply)
    else none

theorem sampleJson_faithful : sampleJson.Faithful := by
  have hne : replyText ≠ requestText := by decide +kernel
  refine ⟨fun d data _ hwrite => ?_, by decide +kernel⟩
  simp only [sampleJson] at hwrite ⊢
  split at hwrite
  · next hd =>
    rw [← Option.some_inj.1 hwrite, if_pos rfl, hd]
    exact ⟨_, rfl, fun _ => rfl⟩
  split at hwrite
  · next hd =>
    rw [← Option.some_inj.1 hwrite, if_neg hne, if_pos rfl, hd]
    exact ⟨_, rfl, fun _ => rfl⟩
  · exact absurd hwrite (by simp)

theorem sampleTexts : Texts (ascii "3fa9") (ascii "77c0") sampleAddress sampleSession where
  pa := by decide +kernel
  serverPa := by decide +kernel
  serverAddress := by decide +kernel
  session _ := show PlainBytes (ascii "00A1B2C3") by decide +kernel

def sampleStep : Machine Creation Action :=
  step sampleJson (ascii "3fa9") (ascii "77c0") sampleSession (makeIP 10 0 0 1) sampleAddress

theorem remote_connected_sample : ∃ s : Creation,
    sampleStep.run {} [.request 1, .serve 0 2 (fun _ => {}) fun _ => {}, .reply 0 {} {}] = some s ∧
    s.remotes.length = 1 ∧ (s.remotes.map (·.2)).Subperm (s.opened.map (·.2)) := by
  have hrun : (sampleStep.run {} [.request 1, .serve 0 2 (fun _ => {}) fun _ => {},
      .reply 0 {} {}]).map (·.remotes.length) = some 1 := by decide +kernel
  obtain ⟨s, hs, hlength⟩ := Option.map_eq_some_iff.1 hrun
  exact ⟨s, hs, hlength, (remote_connected sampleJson_faithful sampleTexts hs).1⟩

/-- With the request of the sample on its way. -/
def sampleRequested : Creation := { requests := [requestText] }

theorem request_answered_sample : ∃ t device,
    sampleStep.run sampleRequested
      [.serve 0 2 (fun _ => {}) fun _ => {}, .reply 0 {} {}] = some t ∧
    t.opened = [(0, device)] ∧ t.remotes = [(0, device)] := by
  have hrun : sampleStep.run {} [.request 1] = some sampleRequested := by decide +kernel
  have hwritten : (sampleRequested.serve sampleJson (ascii "77c0") sampleSession (makeIP 10 0 0 1)
      2 (fun _ => {}) (fun _ => {}) requestText).1 ≠ [0, 0, 0, 0] := by decide +kernel
  exact request_answered sampleJson_faithful sampleTexts hrun (k := 0) rfl hwritten

end Creation

end Dcfpe
