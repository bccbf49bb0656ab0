import Dcfpe.Lib.Machine
import Dcfpe.Zmq.Address

/-!
# Channels and handlers

A process has one `MessageCenter`, in which its parts register channels, each with the address it is
bound or connected to, and the handlers of what comes in.  A channel is the pointer to its socket.
`RegisterChannel` gives out the channel that is there when there is one with the address.

The functions are those of `msg_center.cc` that run on the UI thread.  Sockets are numbered in the
order they are made, and what ZeroMQ makes of a call is an argument.  Its control sockets and its
thread are left out, and so is what is sent.
-/

set_option autoImplicit false

namespace Dcfpe

inductive ChannelType where
  | pub
  | sub
  deriving DecidableEq, Repr

/-- Whether the socket is made, whether it is bound or connected, and whether it subscribes. -/
structure SocketOutcome where
  made : Bool := true
  bound : Bool := true
  subscribed : Bool := true
  deriving DecidableEq, Repr

structure MessageCenter where
  handlers : List Nat := []
  publishers : List (Nat × Bytes) := []
  subscribers : List (Nat × Bytes) := []
  socketAddress : List (Nat × Bytes) := []
  /-- How many sockets were made. -/
  sockets : Nat := 0
  /-- The calls of `zmq_close`. -/
  closed : List Nat := []
  deriving DecidableEq, Repr

namespace MessageCenter

def addMessageHandler (handler : Option Nat) (m : MessageCenter) : MessageCenter :=
  if m.handlers.any (some · = handler) then m
  else
    match handler with
    | some handler => { m with handlers := m.handlers ++ [handler] }
    | none => m

def removeMessageHandler (handler : Nat) (m : MessageCenter) : MessageCenter :=
  { m with handlers := m.handlers.filter (· ≠ handler) }

/-- `publishers_` or `subscribers_`. -/
def table (m : MessageCenter) : ChannelType → List (Nat × Bytes)
  | .pub => m.publishers
  | .sub => m.subscribers

/-- A channel is put into its table and into `socket_address_`. -/
def push (channelType : ChannelType) (channel : Nat × Bytes) (m : MessageCenter) : MessageCenter :=
  match channelType with
  | .pub =>
    { m with
      publishers := m.publishers ++ [channel]
      socketAddress := m.socketAddress ++ [channel] }
  | .sub =>
    { m with
      subscribers := m.subscribers ++ [channel]
      socketAddress := m.socketAddress ++ [channel] }

/-- `RegisterChannel`, with `INVALID_CHANNEL_ID` as `none`. -/
def registerChannel (channelType : ChannelType) (address : Bytes) (outcome : SocketOutcome)
    (m : MessageCenter) : Option Nat × MessageCenter :=
  match (m.table channelType).find? (·.2 = address) with
  | some channel => (some channel.1, m)
  | none =>
    if !outcome.made then (none, m)
    else
      let socket := m.sockets
      let m := { m with sockets := socket + 1 }
      if !outcome.bound || (channelType = .sub && !outcome.subscribed) then
        (none, { m with closed := m.closed ++ [socket] })
      else (some socket, m.push channelType (socket, address))

/-- `RemoveChannel`; publishers are closed at once, subscribers when the thread was told. -/
def removeChannel (channel : Nat) (m : MessageCenter) : MessageCenter :=
  { m with
    publishers := m.publishers.filter (·.1 ≠ channel)
    subscribers := m.subscribers.filter (·.1 ≠ channel)
    socketAddress := m.socketAddress.filter (·.1 ≠ channel)
    closed := m.closed ++ (m.publishers.filter (·.1 = channel)).map (·.1) ++
      (m.subscribers.filter (·.1 = channel)).map (·.1) }

def getAddressByHandle (channel : Nat) (m : MessageCenter) : Bytes :=
  match m.socketAddress.find? (·.1 = channel) with
  | some (_, address) => address
  | none => []

/-- `HandleMessageImpl`: the handler that takes the message, `accepts` being what the
`handle_message` of each returns. -/
def handleMessageImpl (accepts : Nat → Bool) (m : MessageCenter) : Option Nat :=
  m.handlers.find? accepts

/-! ## Each socket is registered or closed -/

/-- Each channel is in one table and in `socket_address_`, no table has an address twice, and each
socket that was made is registered or was closed, once. -/
structure Inv (m : MessageCenter) : Prop where
  listed : m.socketAddress.Perm (m.publishers ++ m.subscribers)
  addresses : ∀ channelType, ((m.table channelType).map (·.2)).Nodup
  sockets : (m.closed ++ m.socketAddress.map (·.1)).Perm (List.range m.sockets)
  handlers : m.handlers.Nodup

variable {m : MessageCenter}

theorem Inv.nodup (h : m.Inv) : (m.closed ++ m.socketAddress.map (·.1)).Nodup :=
  h.sockets.nodup_iff.2 List.nodup_range

theorem inv_empty : Inv {} where
  listed := .refl _
  addresses channelType := by rcases channelType with _ | _ <;> exact List.nodup_nil
  sockets := .refl _
  handlers := List.nodup_nil

theorem table_congr {n : MessageCenter} (hpub : n.publishers = m.publishers)
    (hsub : n.subscribers = m.subscribers) (channelType : ChannelType) :
    n.table channelType = m.table channelType := by
  rcases channelType with _ | _
  · exact hpub
  · exact hsub

theorem find?_table {channelType : ChannelType} {address : Bytes} :
    (m.table channelType).find? (·.2 = address) = none ↔
      address ∉ (m.table channelType).map (·.2) := by
  simp only [List.find?_eq_none, decide_eq_true_eq, List.mem_map, not_exists, not_and]

/-- What `RegisterChannel` can do. -/
theorem registerChannel_cases (channelType : ChannelType) (address : Bytes)
    (outcome : SocketOutcome) (m : MessageCenter) :
    (∃ channel ∈ m.table channelType, channel.2 = address ∧
        m.registerChannel channelType address outcome = (some channel.1, m)) ∨
      address ∉ (m.table channelType).map (·.2) ∧
        (m.registerChannel channelType address outcome = (none, m) ∨
          m.registerChannel channelType address outcome =
            (none, { m with sockets := m.sockets + 1, closed := m.closed ++ [m.sockets] }) ∨
          m.registerChannel channelType address outcome =
            (some m.sockets, { m with sockets := m.sockets + 1 }.push channelType
              (m.sockets, address))) := by
  simp only [registerChannel]
  split
  · next channel hfind =>
    have haddress := List.find?_some hfind
    exact .inl ⟨channel, List.mem_of_find?_eq_some hfind, of_decide_eq_true haddress, rfl⟩
  · next hfind =>
    refine .inr ⟨find?_table.1 hfind, ?_⟩
    split
    · exact .inl rfl
    · split
      · exact .inr (.inl rfl)
      · exact .inr (.inr rfl)

theorem Inv.push (h : m.Inv) {channelType : ChannelType} {address : Bytes}
    (hnew : address ∉ (m.table channelType).map (·.2)) :
    ({ m with sockets := m.sockets + 1 }.push channelType (m.sockets, address)).Inv := by
  have hsockets : (m.closed ++ (m.socketAddress ++ [(m.sockets, address)]).map (·.1)).Perm
      (List.range (m.sockets + 1)) := by
    rw [List.map_append, ← List.append_assoc, List.range_succ]
    exact h.sockets.append_right _
  have haddresses : ((m.table channelType ++ [(m.sockets, address)]).map (·.2)).Nodup := by
    rw [List.map_append, List.nodup_append]
    refine ⟨h.addresses channelType, List.pairwise_singleton _ _, fun a ha b hb hab => hnew ?_⟩
    have hb : b = address := List.mem_singleton.1 hb
    rwa [← hb, ← hab]
  rcases channelType with _ | _
  · refine ⟨?_, fun channelType => ?_, hsockets, h.handlers⟩
    · refine (h.listed.append_right _).trans ?_
      rw [List.append_assoc, MessageCenter.push, List.append_assoc]
      exact List.perm_append_comm.append_left _
    · rcases channelType with _ | _
      · exact haddresses
      · exact h.addresses .sub
  · refine ⟨?_, fun channelType => ?_, hsockets, h.handlers⟩
    · rw [MessageCenter.push, ← List.append_assoc]
      exact h.listed.append_right _
    · rcases channelType with _ | _
      · exact h.addresses .pub
      · exact haddresses

theorem Inv.registerChannel (h : m.Inv) (channelType : ChannelType) (address : Bytes)
    (outcome : SocketOutcome) : (m.registerChannel channelType address outcome).2.Inv := by
  rcases registerChannel_cases channelType address outcome m with
    ⟨channel, -, -, heq⟩ | ⟨hnew, heq | heq | heq⟩ <;> rw [heq]
  · exact h
  · exact h
  · refine ⟨h.listed, fun channelType => ?_, ?_, h.handlers⟩
    · rw [table_congr rfl rfl]
      exact h.addresses channelType
    · rw [List.append_assoc, List.range_succ]
      refine (List.perm_append_comm.append_left _).trans ?_
      rw [← List.append_assoc]
      exact h.sockets.append_right _
  · exact h.push hnew

theorem Inv.removeChannel (h : m.Inv) (channel : Nat) : (m.removeChannel channel).Inv := by
  refine ⟨?_, fun channelType => ?_, ?_, h.handlers⟩
  · simp only [MessageCenter.removeChannel]
    rw [← List.filter_append]
    exact h.listed.filter _
  · rcases channelType with _ | _
    · exact (h.addresses .pub).sublist (List.filter_sublist.map _)
    · exact (h.addresses .sub).sublist (List.filter_sublist.map _)
  · -- what is taken out of the tables is closed
    have hout : ((m.publishers.filter (·.1 = channel)).map (·.1) ++
        (m.subscribers.filter (·.1 = channel)).map (·.1)).Perm
          ((m.socketAddress.filter (·.1 = channel)).map (·.1)) := by
      rw [← List.map_append, ← List.filter_append]
      exact ((h.listed.filter _).map _).symm
    have hsplit : ((m.socketAddress.filter (·.1 = channel)).map (·.1) ++
        (m.socketAddress.filter (·.1 ≠ channel)).map (·.1)).Perm (m.socketAddress.map (·.1)) := by
      rw [← List.map_append]
      have hperm := (List.filter_append_perm (·.1 = channel) m.socketAddress).map (·.1)
      simpa only [decide_not] using hperm
    simp only [MessageCenter.removeChannel]
    rw [List.append_assoc, List.append_assoc]
    refine List.Perm.trans (List.Perm.append_left _ ?_) h.sockets
    rw [← List.append_assoc]
    exact (hout.append_right _).trans hsplit

theorem addMessageHandler_new {handler : Nat} (h : handler ∉ m.handlers) :
    m.addMessageHandler (some handler) = { m with handlers := m.handlers ++ [handler] } := by
  rw [addMessageHandler, if_neg (by simpa using h)]

theorem Inv.addMessageHandler (h : m.Inv) (handler : Option Nat) :
    (m.addMessageHandler handler).Inv := by
  rcases handler with _ | handler
  · rw [MessageCenter.addMessageHandler]
    split <;> exact h
  by_cases hnew : handler ∈ m.handlers
  · rw [MessageCenter.addMessageHandler, if_pos (by simpa using hnew)]
    exact h
  · rw [addMessageHandler_new hnew]
    refine ⟨h.listed, fun channelType => ?_, h.sockets, ?_⟩
    · rw [table_congr rfl rfl]
      exact h.addresses channelType
    · exact List.nodup_append.2 ⟨h.handlers, List.pairwise_singleton _ _, fun a ha b hb hab =>
        hnew (List.mem_singleton.1 hb ▸ hab ▸ ha)⟩

theorem Inv.removeMessageHandler (h : m.Inv) (handler : Nat) :
    (m.removeMessageHandler handler).Inv := by
  refine ⟨h.listed, fun channelType => ?_, h.sockets, h.handlers.filter _⟩
  rw [table_congr rfl rfl]
  exact h.addresses channelType

/-! ## Any calls -/

inductive Call where
  | addMessageHandler (handler : Option Nat)
  | removeMessageHandler (handler : Nat)
  | registerChannel (channelType : ChannelType) (address : Bytes) (outcome : SocketOutcome)
  | removeChannel (channel : Nat)
  deriving DecidableEq, Repr

def step : Machine MessageCenter Call
  | m, .addMessageHandler handler => some (m.addMessageHandler handler)
  | m, .removeMessageHandler handler => some (m.removeMessageHandler handler)
  | m, .registerChannel channelType address outcome =>
    some (m.registerChannel channelType address outcome).2
  | m, .removeChannel channel => some (m.removeChannel channel)

theorem inv_step (m : MessageCenter) (call : Call) (n : MessageCenter) (h : m.Inv)
    (hstep : step m call = some n) : n.Inv := by
  rcases call with handler | handler | ⟨channelType, address, outcome⟩ | channel <;>
    rw [← Option.some_inj.1 hstep]
  · exact h.addMessageHandler handler
  · exact h.removeMessageHandler handler
  · exact h.registerChannel channelType address outcome
  · exact h.removeChannel channel

/-- The channel that is registered with an address is the one that is given out for it. -/
theorem Inv.registerChannel_of_mem (h : m.Inv) {channelType : ChannelType} {channel : Nat × Bytes}
    (hmem : channel ∈ m.table channelType) (outcome : SocketOutcome) :
    m.registerChannel channelType channel.2 outcome = (some channel.1, m) := by
  rcases registerChannel_cases channelType channel.2 outcome m with
    ⟨channel', hmem', hsame, heq⟩ | ⟨hnew, -⟩
  · rw [heq, List.inj_on_of_nodup_map (h.addresses channelType) hmem' hmem hsame]
  · exact absurd (List.mem_map_of_mem hmem) hnew

theorem Inv.mem_socketAddress (h : m.Inv) {channelType : ChannelType} {channel : Nat × Bytes}
    (hmem : channel ∈ m.table channelType) : channel ∈ m.socketAddress := by
  rw [h.listed.mem_iff, List.mem_append]
  rcases channelType with _ | _
  · exact .inl hmem
  · exact .inr hmem

theorem Inv.getAddressByHandle_of_mem (h : m.Inv) {channelType : ChannelType}
    {channel : Nat × Bytes} (hmem : channel ∈ m.table channelType) :
    m.getAddressByHandle channel.1 = channel.2 := by
  have hlisted := h.mem_socketAddress hmem
  have hnodup := (List.nodup_append.1 h.nodup).2.1
  rw [getAddressByHandle]
  split
  · next channel' address hfind =>
    have hsame : channel' = channel.1 := by simpa using List.find?_some hfind
    exact congrArg Prod.snd (List.inj_on_of_nodup_map hnodup (List.mem_of_find?_eq_some hfind)
      hlisted hsame)
  · next hfind => exact absurd (decide_eq_true rfl) (List.find?_eq_none.1 hfind channel hlisted)

/-- **Channels are accounted for**, whatever is registered and removed and however often ZeroMQ
fails: each socket that was made is registered, in one table, or was closed once, and as long as a
channel is registered it is the one that is given out for its address. -/
theorem channels_accounted {calls : List Call} (hrun : step.run {} calls = some m) :
    (m.closed ++ m.socketAddress.map (·.1)).Perm (List.range m.sockets) ∧
      m.socketAddress.Perm (m.publishers ++ m.subscribers) ∧ m.handlers.Nodup ∧
      ∀ channelType, ∀ channel ∈ m.table channelType,
        (∀ outcome, m.registerChannel channelType channel.2 outcome = (some channel.1, m)) ∧
          m.getAddressByHandle channel.1 = channel.2 := by
  have h := Machine.run_invariant inv_step inv_empty hrun
  exact ⟨h.sockets, h.listed, h.handlers, fun channelType channel hmem =>
    ⟨h.registerChannel_of_mem hmem, h.getAddressByHandle_of_mem hmem⟩⟩

/-- Two channels and a failure, and then the first channel is removed. -/
def twoChannels : List Call :=
  [.registerChannel .sub [1] {}, .registerChannel .pub [2] {},
    .registerChannel .pub [3] { bound := false }, .addMessageHandler (some 7), .removeChannel 0]

theorem channels_accounted_twoChannels : ∃ m, step.run {} twoChannels = some m ∧
    m.closed = [2, 0] ∧ (m.closed ++ m.socketAddress.map (·.1)).Perm (List.range m.sockets) ∧
    m.registerChannel .pub [2] {} = (some 1, m) ∧ m.getAddressByHandle 1 = [2] := by
  have hrun : step.run {} twoChannels =
      some
        { handlers := [7], publishers := [(1, [2])], subscribers := [], socketAddress := [(1, [2])]
          sockets := 3, closed := [2, 0] } := by decide
  obtain ⟨hsockets, -, -, hchannels⟩ := channels_accounted hrun
  obtain ⟨hregister, haddress⟩ := hchannels .pub (1, [2]) List.mem_cons_self
  exact ⟨_, hrun, rfl, hsockets, hregister {}, haddress⟩

end MessageCenter

end Dcfpe
