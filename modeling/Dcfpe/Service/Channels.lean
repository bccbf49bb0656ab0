import Dcfpe.Zmq.MessageCenter
import Mathlib.Data.List.Pairwise

/-!
# Who owns a channel

Three kinds of objects have channels and handle messages: the `DPEService` itself, which has one to
receive on, and the two ends of a device, a `DPEDeviceImpl`, which binds a channel of either type to
addresses of its own, and a `RemoteDPEDevice`, which connects to the addresses it was told.  Each
removes its channels when it ends.

The functions are those of `dpe_service.cc`, `dpe_device_impl.cc` and `dpe_scheduler.cc` that open
and close channels; an object that has its channels is an `Endpoint`.  `RegisterChannel` hands out a
channel again for the same address, so that two objects may come to share one.  `Fresh` says when
they do not, and then each channel has one owner, which alone is told what comes in on it; and
`stop_cuts_off` says what becomes of a channel that is shared.
-/

set_option autoImplicit false

namespace Dcfpe

open AddressHelper

/-- An object with a channel to receive on and, unless it is the service, one to send on. -/
structure Endpoint where
  id : Nat
  receive : Nat × Bytes
  send : Option (Nat × Bytes) := none
  deriving DecidableEq, Repr

/-- The sockets of its channels. -/
def Endpoint.sockets (e : Endpoint) : List Nat := e.receive.1 :: e.send.toList.map (·.1)

/-- A process; the endpoints are those that have not ended, numbered in the order they came. -/
structure Channels where
  center : MessageCenter := {}
  nextAvailablePort : Nat := kMinPort
  endpoints : List Endpoint := []
  ids : Nat := 0
  deriving DecidableEq, Repr

namespace Channels

/-! ## Opening and closing -/

/-- The loops that bind a channel to a new address; `outcome` has the tries from the last one. -/
def registerOwn (channelType : ChannelType) (ip : UInt32) (outcome : Nat → SocketOutcome) :
    Nat → Channels → Option (Nat × Bytes) × Channels
  | 0, s => (none, s)
  | n + 1, s =>
    let (port, next) := getNextAvailablePort s.nextAvailablePort
    let address := makeZMQTCPAddress ip port
    let (channel, center) := s.center.registerChannel channelType address (outcome n)
    let s := { s with center := center, nextAvailablePort := next }
    match channel with
    | some socket => (some (socket, address), s)
    | none => registerOwn channelType ip outcome n s

/-- The object has its channels and adds itself to the handlers. -/
def enter (receive : Nat × Bytes) (send : Option (Nat × Bytes)) (s : Channels) : Channels :=
  { s with
    center := s.center.addMessageHandler (some s.ids)
    endpoints := s.endpoints ++ [{ id := s.ids, receive, send }]
    ids := s.ids + 1 }

/-- The channel of `DPEService::Start`. -/
def startService (processId : UInt32) (receive : Nat → SocketOutcome) (s : Channels) : Channels :=
  match s.registerOwn .sub (getProcessIP processId) receive 3 with
  | (none, s) => s
  | (some channel, s) => s.enter channel none

/-- `DPEDeviceImpl::OpenDevice`. -/
def openDevice (ip : UInt32) (receive send : Nat → SocketOutcome) (s : Channels) : Channels :=
  match s.registerOwn .sub ip receive 3 with
  | (none, s) => s
  | (some channel, s) =>
    match s.registerOwn .pub ip send 3 with
    | (none, s) => { s with center := s.center.removeChannel channel.1 }
    | (some sendChannel, s) => s.enter channel (some sendChannel)

/-- `RemoteDPEDevice::Start`. -/
def startRemote (receiveAddress sendAddress : Bytes) (receive send : SocketOutcome)
    (s : Channels) : Channels :=
  match s.center.registerChannel .sub receiveAddress receive with
  | (none, center) => { s with center := center }
  | (some socket, center) =>
    match center.registerChannel .pub sendAddress send with
    | (none, center) => { s with center := center.removeChannel socket }
    | (some sendSocket, center) =>
      { s with center := center }.enter (socket, receiveAddress) (some (sendSocket, sendAddress))

/-- The end of an object: `StopImpl`, `CloseDevice` and `Stop` remove the same things. -/
def close (id : Nat) (s : Channels) : Channels :=
  match s.endpoints.find? (·.id = id) with
  | none => s
  | some e =>
    let center := s.center.removeChannel e.receive.1
    let center :=
      match e.send with
      | some channel => center.removeChannel channel.1
      | none => center
    { s with
      center := center.removeMessageHandler id
      endpoints := s.endpoints.filter (·.id ≠ id) }

/-- Which object handles a message; each takes those of its own channel. -/
def handleMessage (socket : Nat) (s : Channels) : Option Nat :=
  s.center.handleMessageImpl fun id => s.endpoints.any fun e => e.id = id && e.receive.1 = socket

inductive Action where
  | service (processId : UInt32) (receive : Nat → SocketOutcome)
  | device (ip : UInt32) (receive send : Nat → SocketOutcome)
  | remote (receiveAddress sendAddress : Bytes) (receive send : SocketOutcome)
  | close (id : Nat)

def step : Machine Channels Action
  | s, .service processId receive => some (s.startService processId receive)
  | s, .device ip receive send => some (s.openDevice ip receive send)
  | s, .remote receiveAddress sendAddress receive send =>
    some (s.startRemote receiveAddress sendAddress receive send)
  | s, .close id => some (s.close id)

/-- The address is not that of a channel of the type. -/
def Unused (channelType : ChannelType) (address : Bytes) (s : Channels) : Prop :=
  address ∉ (s.center.table channelType).map (·.2)

/-- The addresses that the loop registers are those of no channels of the type. -/
def TriesUnused (channelType : ChannelType) (ip : UInt32) (outcome : Nat → SocketOutcome) :
    Nat → Channels → Prop
  | 0, _ => True
  | n + 1, s =>
    let port := getNextAvailablePort s.nextAvailablePort
    let address := makeZMQTCPAddress ip port.1
    let tried := s.center.registerChannel channelType address (outcome n)
    s.Unused channelType address ∧ (tried.1 = none →
      TriesUnused channelType ip outcome n
        { s with center := tried.2, nextAvailablePort := port.2 })

/-- No address is registered that a channel of its type has. -/
def Fresh (s : Channels) : Action → Prop
  | .service processId receive => s.TriesUnused .sub (getProcessIP processId) receive 3
  | .device ip receive send => s.TriesUnused .sub ip receive 3 ∧
    ((s.registerOwn .sub ip receive 3).1.isSome →
      (s.registerOwn .sub ip receive 3).2.TriesUnused .pub ip send 3)
  | .remote receiveAddress sendAddress receive _ => s.Unused .sub receiveAddress ∧
    ((s.center.registerChannel .sub receiveAddress receive).1.isSome →
      s.Unused .pub sendAddress)
  | .close _ => True

instance decidableUnused (channelType : ChannelType) (address : Bytes) (s : Channels) :
    Decidable (s.Unused channelType address) :=
  inferInstanceAs (Decidable (address ∉ (s.center.table channelType).map (·.2)))

instance decidableTriesUnused (channelType : ChannelType) (ip : UInt32)
    (outcome : Nat → SocketOutcome) :
    (n : Nat) → (s : Channels) → Decidable (s.TriesUnused channelType ip outcome n)
  | 0, _ => isTrue trivial
  | n + 1, s => by
    have := decidableTriesUnused channelType ip outcome n
    unfold TriesUnused
    infer_instance

instance decidableFresh (s : Channels) : (a : Action) → Decidable (s.Fresh a)
  | .service processId receive =>
    inferInstanceAs (Decidable (s.TriesUnused .sub (getProcessIP processId) receive 3))
  | .device ip receive send =>
    inferInstanceAs (Decidable (s.TriesUnused .sub ip receive 3 ∧
      ((s.registerOwn .sub ip receive 3).1.isSome →
        (s.registerOwn .sub ip receive 3).2.TriesUnused .pub ip send 3)))
  | .remote receiveAddress sendAddress receive _ =>
    inferInstanceAs (Decidable (s.Unused .sub receiveAddress ∧
      ((s.center.registerChannel .sub receiveAddress receive).1.isSome →
        s.Unused .pub sendAddress)))
  | .close _ => isTrue trivial

/-! ## Each channel has one owner -/

/-- The channels of a type that the endpoints have. -/
def owned (s : Channels) : ChannelType → List (Nat × Bytes)
  | .pub => s.endpoints.filterMap (·.send)
  | .sub => s.endpoints.map (·.receive)

/-- The channels are those of the endpoints, and the `loose` ones of an object that is about to
open; the handlers are the endpoints. -/
structure Holds (loose : ChannelType → List (Nat × Bytes)) (s : Channels) : Prop where
  center : s.center.Inv
  tables : ∀ channelType, s.center.table channelType = s.owned channelType ++ loose channelType
  handlers : s.center.handlers = s.endpoints.map (·.id)
  ids : ∀ e ∈ s.endpoints, e.id < s.ids

def Owned (s : Channels) : Prop := s.Holds fun _ => []

/-- One more loose channel. -/
def loosen (channelType : ChannelType) (channel : Nat × Bytes)
    (loose : ChannelType → List (Nat × Bytes)) (other : ChannelType) : List (Nat × Bytes) :=
  if other = channelType then loose other ++ [channel] else loose other

variable {s : Channels} {loose : ChannelType → List (Nat × Bytes)}

theorem table_push (channelType other : ChannelType) (channel : Nat × Bytes) (m : MessageCenter) :
    (m.push channelType channel).table other =
      if other = channelType then m.table other ++ [channel] else m.table other := by
  rcases channelType with _ | _ <;> rcases other with _ | _ <;> rfl

theorem handlers_push (channelType : ChannelType) (channel : Nat × Bytes) (m : MessageCenter) :
    (m.push channelType channel).handlers = m.handlers := by
  rcases channelType with _ | _ <;> rfl

/-- A channel with an address that no channel has is a new one. -/
theorem Holds.registerChannel (h : s.Holds loose) {channelType : ChannelType} {address : Bytes}
    (hunused : s.Unused channelType address) (outcome : SocketOutcome) :
    ∃ channel center, s.center.registerChannel channelType address outcome = (channel, center) ∧
      (∀ other ≠ channelType, center.table other = s.center.table other) ∧
      match channel with
      | none => center.table channelType = s.center.table channelType ∧
          { s with center := center }.Holds loose
      | some socket =>
          { s with center := center }.Holds (loosen channelType (socket, address) loose) := by
  have hinv := h.center.registerChannel channelType address outcome
  rcases s.center.registerChannel_cases channelType address outcome with
    ⟨channel, hmem, hsame, -⟩ | ⟨-, heq | heq | heq⟩
  · exact absurd (hsame ▸ List.mem_map_of_mem hmem) hunused
  · exact ⟨none, _, heq, fun _ _ => rfl, rfl, h⟩
  · rw [heq] at hinv
    exact ⟨none, _, heq, fun other _ => MessageCenter.table_congr rfl rfl other,
      MessageCenter.table_congr rfl rfl channelType, hinv,
      fun other => (MessageCenter.table_congr rfl rfl other).trans (h.tables other), h.handlers,
      h.ids⟩
  · rw [heq] at hinv
    have htable : ∀ other, MessageCenter.table { s.center with sockets := s.center.sockets + 1 }
        other = s.center.table other := MessageCenter.table_congr rfl rfl
    refine ⟨some s.center.sockets, _, heq, fun other hother => ?_, hinv, fun other => ?_, ?_,
      h.ids⟩
    · rw [table_push, if_neg hother, htable]
    · rw [table_push, htable, loosen, h.tables other]
      by_cases hother : other = channelType
      · rw [if_pos hother, if_pos hother, List.append_assoc]
        rfl
      · rw [if_neg hother, if_neg hother]
        rfl
    · exact (handlers_push channelType _ _).trans h.handlers

/-- What a loop that binds a channel leaves: perhaps one more loose channel. -/
theorem Holds.registerOwn (h : s.Holds loose) (channelType : ChannelType) (ip : UInt32)
    (outcome : Nat → SocketOutcome) (n : Nat) (hunused : s.TriesUnused channelType ip outcome n) :
    ∃ channel t, s.registerOwn channelType ip outcome n = (channel, t) ∧
      match channel with
      | none => t.Holds loose
      | some channel => t.Holds (loosen channelType channel loose) := by
  induction n generalizing s with
  | zero => exact ⟨none, s, rfl, h⟩
  | succ n ih =>
    obtain ⟨hfirst, hrest⟩ := hunused
    obtain ⟨channel, center, heq, -, hcenter⟩ := h.registerChannel hfirst (outcome n)
    rcases channel with _ | socket
    · obtain ⟨-, hcenter⟩ := hcenter
      have hnext : Holds loose { s with
          center := center, nextAvailablePort := (getNextAvailablePort s.nextAvailablePort).2 } :=
        ⟨hcenter.center, hcenter.tables, hcenter.handlers, hcenter.ids⟩
      rw [heq] at hrest
      obtain ⟨channel, t, hrun, ht⟩ := ih hnext (hrest rfl)
      refine ⟨channel, t, ?_, ht⟩
      rw [Channels.registerOwn]
      simp only [heq]
      exact hrun
    · refine ⟨some (socket, _), { s with
        center := center, nextAvailablePort := (getNextAvailablePort s.nextAvailablePort).2 }, ?_,
        hcenter.center, hcenter.tables, hcenter.handlers, hcenter.ids⟩
      rw [Channels.registerOwn]
      simp only [heq]

/-- The sockets of the channels are those of the endpoints and the loose ones. -/
theorem sockets_perm (es : List Endpoint) :
    ((es.filterMap (·.send) ++ es.map (·.receive)).map (·.1)).Perm
      (es.flatMap Endpoint.sockets) := by
  induction es with
  | nil => exact .refl _
  | cons e es ih =>
    have hsend : ((e :: es).filterMap (·.send)) = e.send.toList ++ es.filterMap (·.send) := by
      rcases hsend : e.send with _ | channel <;> simp [hsend]
    rw [hsend, List.map_cons, List.flatMap_cons, Endpoint.sockets, List.append_assoc,
      List.map_append, List.cons_append, List.map_append, List.map_cons]
    refine (List.perm_append_comm.append_left _).trans ?_
    rw [List.cons_append]
    refine List.perm_middle.trans (.cons _ (.append_left _ ?_))
    refine List.perm_append_comm.trans ?_
    rw [← List.map_append]
    exact ih

theorem Owned.publishers (h : s.Owned) :
    s.center.publishers = s.endpoints.filterMap (·.send) := by
  simpa [owned, MessageCenter.table] using h.tables .pub

theorem Owned.subscribers (h : s.Owned) : s.center.subscribers = s.endpoints.map (·.receive) := by
  simpa [owned, MessageCenter.table] using h.tables .sub

theorem Owned.nodup (h : s.Owned) : (s.endpoints.flatMap Endpoint.sockets).Nodup := by
  have hperm := (h.center.listed.map (·.1)).trans
    (h.publishers ▸ h.subscribers ▸ sockets_perm s.endpoints)
  exact hperm.nodup_iff.1 (List.nodup_append.1 h.center.nodup).2.1

/-- **A channel has one owner.** -/
theorem Owned.unique (h : s.Owned) {e e' : Endpoint} (he : e ∈ s.endpoints)
    (he' : e' ∈ s.endpoints) {socket : Nat} (hs : socket ∈ e.sockets) (hs' : socket ∈ e'.sockets) :
    e = e' := by
  have hpairwise := (List.nodup_flatMap.1 h.nodup).2
  have hsymm : Std.Symm (Function.onFun List.Disjoint Endpoint.sockets) :=
    ⟨fun _ _ hdisjoint => List.disjoint_symm hdisjoint⟩
  by_contra hne
  exact hpairwise.forall he he' hne hs hs'

theorem Owned.nodup_ids (h : s.Owned) : (s.endpoints.map (·.id)).Nodup :=
  h.handlers ▸ h.center.handlers

theorem Owned.eq_of_id (h : s.Owned) {e e' : Endpoint} (he : e ∈ s.endpoints)
    (he' : e' ∈ s.endpoints) (hid : e.id = e'.id) : e = e' :=
  List.inj_on_of_nodup_map h.nodup_ids he he' hid

/-! ## What opens keeps it -/

theorem Holds.congr {other : ChannelType → List (Nat × Bytes)} (h : s.Holds loose)
    (heq : ∀ channelType, loose channelType = other channelType) : s.Holds other :=
  ⟨h.center, fun channelType => heq channelType ▸ h.tables channelType, h.handlers, h.ids⟩

theorem Holds.enter {receive : Nat × Bytes} {send : Option (Nat × Bytes)}
    (hsub : loose .sub = [receive]) (hpub : loose .pub = send.toList) (h : s.Holds loose) :
    (s.enter receive send).Owned := by
  have hnew : s.ids ∉ s.center.handlers := by
    rw [h.handlers, List.mem_map]
    rintro ⟨e, he, hid⟩
    exact Nat.lt_irrefl _ (hid ▸ h.ids e he)
  have hadd := MessageCenter.addMessageHandler_new hnew
  refine ⟨h.center.addMessageHandler _, fun channelType => ?_, ?_, fun e he => ?_⟩
  · have htable := h.tables channelType
    rw [Channels.enter, hadd]
    rcases channelType with _ | _
    · rw [hpub] at htable
      refine htable.trans ?_
      rcases send with _ | channel <;> simp [owned]
    · rw [hsub] at htable
      refine htable.trans ?_
      simp [owned]
  · rw [Channels.enter, hadd]
    simp [h.handlers]
  · rcases List.mem_append.1 he with he | he
    · exact Nat.lt_succ_of_lt (h.ids e he)
    · rw [List.mem_singleton.1 he]
      exact Nat.lt_succ_self _

/-- What `RemoveChannel` leaves in the tables. -/
theorem table_removeChannel (channel : Nat) (m : MessageCenter) (channelType : ChannelType) :
    (m.removeChannel channel).table channelType =
      (m.table channelType).filter (·.1 ≠ channel) := by
  rcases channelType with _ | _ <;> rfl

/-- No socket is in both tables, or twice in one. -/
theorem nodup_tables (h : s.center.Inv) :
    ((s.center.table .pub ++ s.center.table .sub).map (·.1)).Nodup :=
  (h.listed.map (·.1)).nodup_iff.1 (List.nodup_append.1 h.nodup).2.1

/-- The channel of an object that could not open is removed. -/
theorem Holds.removeReceive {channel : Nat × Bytes}
    (h : s.Holds (loosen .sub channel fun _ => [])) :
    Owned { s with center := s.center.removeChannel channel.1 } := by
  have hpub : s.center.table .pub = s.owned .pub := by simpa [loosen] using h.tables .pub
  have hsub : s.center.table .sub = s.owned .sub ++ [channel] := by
    simpa [loosen] using h.tables .sub
  have hnodup := nodup_tables h.center
  rw [hpub, hsub, List.map_append, List.map_append, ← List.append_assoc] at hnodup
  have hother : ∀ c, c ∈ s.owned .pub ∨ c ∈ s.owned .sub → c.1 ≠ channel.1 := by
    intro c hc heq
    refine (List.nodup_append.1 hnodup).2.2 c.1 ?_ channel.1 (List.mem_singleton_self _) heq
    rw [← List.map_append]
    exact List.mem_map_of_mem (List.mem_append.2 hc)
  refine ⟨h.center.removeChannel channel.1, fun channelType => ?_, h.handlers, h.ids⟩
  rw [List.append_nil]
  refine (table_removeChannel channel.1 s.center channelType).trans ?_
  rcases channelType with _ | _
  · rw [hpub]
    exact List.filter_eq_self.2 fun c hc => decide_eq_true (hother c (.inl hc))
  · rw [hsub, List.filter_append, List.filter_eq_self.2 fun c hc =>
      decide_eq_true (hother c (.inr hc))]
    simp [owned]

theorem Owned.startService (h : s.Owned) {processId : UInt32} {receive : Nat → SocketOutcome}
    (hfresh : s.Fresh (.service processId receive)) : (s.startService processId receive).Owned := by
  obtain ⟨channel, t, heq, ht⟩ := Holds.registerOwn h .sub _ receive 3 hfresh
  rw [Channels.startService, heq]
  rcases channel with _ | channel
  · exact ht
  · exact Holds.enter (by simp [loosen]) (by simp [loosen]) ht

theorem Owned.openDevice (h : s.Owned) {ip : UInt32} {receive send : Nat → SocketOutcome}
    (hfresh : s.Fresh (.device ip receive send)) : (s.openDevice ip receive send).Owned := by
  obtain ⟨hreceive, hsend⟩ := hfresh
  obtain ⟨channel, t, heq, ht⟩ := Holds.registerOwn h .sub ip receive 3 hreceive
  rw [heq] at hsend
  rw [Channels.openDevice, heq]
  rcases channel with _ | channel
  · exact ht
  · obtain ⟨sendChannel, u, heq', hu⟩ := Holds.registerOwn ht .pub ip send 3 (hsend rfl)
    simp only [heq']
    rcases sendChannel with _ | sendChannel
    · exact hu.removeReceive
    · exact Holds.enter (by simp [loosen]) (by simp [loosen]) hu

theorem Owned.startRemote (h : s.Owned) {receiveAddress sendAddress : Bytes}
    {receive send : SocketOutcome}
    (hfresh : s.Fresh (.remote receiveAddress sendAddress receive send)) :
    (s.startRemote receiveAddress sendAddress receive send).Owned := by
  obtain ⟨hreceive, hsend⟩ := hfresh
  obtain ⟨channel, center, heq, hother, hcenter⟩ := Holds.registerChannel h hreceive receive
  rw [heq] at hsend
  rw [Channels.startRemote, heq]
  rcases channel with _ | socket
  · exact hcenter.2
  · have hunused : Unused .pub sendAddress { s with center := center } := by
      rw [Unused, hother .pub (by simp)]
      exact hsend rfl
    obtain ⟨sendChannel, center', heq', -, hcenter'⟩ := Holds.registerChannel hcenter hunused send
    simp only [heq']
    rcases sendChannel with _ | sendSocket
    · exact hcenter'.2.removeReceive
    · exact Holds.enter (by simp [loosen]) (by simp [loosen]) hcenter'

/-! ## What closes keeps it -/

/-- The channels of an endpoint are those that are removed when it ends. -/
theorem Owned.filter_owned (h : s.Owned) {e : Endpoint} (he : e ∈ s.endpoints)
    (channelType : ChannelType) :
    (s.owned channelType).filter (fun c => decide (c.1 ∉ e.sockets)) =
      owned { s with endpoints := s.endpoints.filter (·.id ≠ e.id) } channelType := by
  -- a socket of another endpoint is not one of this endpoint
  have hkeep : ∀ e' ∈ s.endpoints, ∀ socket ∈ e'.sockets, socket ∉ e.sockets ↔ e'.id ≠ e.id := by
    intro e' he' socket hsocket
    constructor
    · intro hnot hid
      exact hnot (h.eq_of_id he' he hid ▸ hsocket)
    · intro hid hmem
      exact hid (congrArg Endpoint.id (h.unique he' he hsocket hmem))
  rcases channelType with _ | _
  · simp only [owned]
    rw [List.filter_filterMap, List.filterMap_filter]
    refine List.filterMap_congr fun e' he' => ?_
    rcases hsend : e'.send with _ | channel
    · simp
    · have hsocket : channel.1 ∈ e'.sockets := by simp [Endpoint.sockets, hsend]
      simp only [Option.filter, hkeep e' he' _ hsocket]
  · simp only [owned]
    rw [List.filter_map]
    refine congrArg _ (List.filter_congr fun e' he' => ?_)
    exact decide_eq_decide.2 (hkeep e' he' _ List.mem_cons_self)

theorem Owned.close (h : s.Owned) (id : Nat) : (s.close id).Owned := by
  rw [Channels.close]
  split
  · exact h
  · next e hfind =>
    have he := List.mem_of_find?_eq_some hfind
    obtain rfl : e.id = id := by simpa using List.find?_some hfind
    refine ⟨?_, fun channelType => ?_, ?_, fun e' he' => h.ids e' (List.mem_of_mem_filter he')⟩
    · rcases e.send with _ | channel
      · exact (h.center.removeChannel _).removeMessageHandler _
      · exact ((h.center.removeChannel _).removeChannel _).removeMessageHandler _
    · have hfilter : ∀ m : MessageCenter, (m.removeMessageHandler e.id).table channelType =
          m.table channelType := fun m => MessageCenter.table_congr rfl rfl channelType
      have htable := h.tables channelType
      rw [List.append_nil] at htable ⊢
      refine (hfilter _).trans (Eq.trans ?_ (h.filter_owned he channelType))
      rcases hsend : e.send with _ | channel
      · simp [table_removeChannel, htable, Endpoint.sockets, hsend]
      · simp only [table_removeChannel, htable, List.filter_filter]
        refine List.filter_congr fun c _ => ?_
        simp [Endpoint.sockets, hsend, and_comm]
    · have hremove : ∀ channel (m : MessageCenter), (m.removeChannel channel).handlers =
          m.handlers := fun _ _ => rfl
      rcases e.send with _ | channel <;>
        simp only [MessageCenter.removeMessageHandler, hremove, h.handlers, List.filter_map] <;> rfl

theorem owned_step (s : Channels) (a : Action) (t : Channels) (h : s.Owned) (hfresh : s.Fresh a)
    (hstep : step s a = some t) : t.Owned := by
  rcases a with ⟨processId, receive⟩ | ⟨ip, receive, send⟩ |
    ⟨receiveAddress, sendAddress, receive, send⟩ | id <;> rw [← Option.some_inj.1 hstep]
  · exact h.startService hfresh
  · exact h.openDevice hfresh
  · exact h.startRemote hfresh
  · exact h.close id

theorem owned_empty : Owned {} where
  center := MessageCenter.inv_empty
  tables channelType := by rcases channelType with _ | _ <;> rfl
  handlers := rfl
  ids e he := absurd he (by simp)

/-! ## Messages and the end -/

theorem Owned.handleMessage_eq (h : s.Owned) {e : Endpoint} (he : e ∈ s.endpoints) :
    s.handleMessage e.receive.1 = some e.id := by
  have htakes : ∀ id, (s.endpoints.any fun e' => e'.id = id && e'.receive.1 = e.receive.1) = true ↔
      id = e.id := by
    intro id
    simp only [List.any_eq_true, Bool.and_eq_true, decide_eq_true_eq]
    constructor
    · rintro ⟨e', he', rfl, hreceive⟩
      have hsocket : e.receive.1 ∈ e'.sockets := hreceive ▸ List.mem_cons_self
      exact congrArg Endpoint.id (h.unique he' he hsocket List.mem_cons_self)
    · rintro rfl
      exact ⟨e, he, rfl, rfl⟩
  have hhandler : e.id ∈ s.center.handlers := h.handlers ▸ List.mem_map_of_mem he
  rw [handleMessage, MessageCenter.handleMessageImpl]
  rcases hfind : s.center.handlers.find? _ with _ | id
  · exact absurd ((htakes e.id).2 rfl) (List.find?_eq_none.1 hfind e.id hhandler)
  · have htaken := List.find?_some hfind
    rw [(htakes id).1 htaken]

theorem Owned.mem_tables (h : s.Owned) {e : Endpoint} (he : e ∈ s.endpoints) :
    e.receive ∈ s.center.subscribers ∧ ∀ channel ∈ e.send, channel ∈ s.center.publishers := by
  rw [h.publishers, h.subscribers]
  exact ⟨List.mem_map_of_mem he, fun channel hsend => List.mem_filterMap.2 ⟨e, he, hsend⟩⟩

/-- `RemoveChannel` closes what is in a table. -/
theorem mem_closed_removeChannel {m : MessageCenter} {channel : Nat × Bytes}
    (h : channel ∈ m.subscribers) : channel.1 ∈ (m.removeChannel channel.1).closed := by
  refine List.mem_append_right _ (List.mem_map_of_mem (List.mem_filter.2 ⟨h, ?_⟩))
  exact decide_eq_true rfl

theorem mem_closed_of_removeChannel {m : MessageCenter} {socket : Nat} (h : socket ∈ m.closed)
    (channel : Nat) : socket ∈ (m.removeChannel channel).closed :=
  List.mem_append_left _ (List.mem_append_left _ h)

/-- **A channel that is shared is closed under its other owner.**  A device that is told an address
on which an object of the process receives gets its channel; when the device ends, the object goes
on handling messages, but its channel is closed. -/
theorem stop_cuts_off {actions : List Action} (hfresh : step.Meets Fresh {} actions)
    (hrun : step.run {} actions = some s) {e : Endpoint} (he : e ∈ s.endpoints)
    {sendAddress : Bytes} (hunused : s.Unused .pub sendAddress) (receive : SocketOutcome)
    {send : SocketOutcome} (hmade : send.made = true) (hbound : send.bound = true) :
    ∃ t u, step s (.remote e.receive.2 sendAddress receive send) = some t ∧
      (∃ device ∈ t.endpoints, device.id = s.ids ∧ device.receive = e.receive) ∧
      step t (.close s.ids) = some u ∧ e ∈ u.endpoints ∧ e.id ∈ u.center.handlers ∧
      e.receive.1 ∈ u.center.closed ∧
      ∀ channel ∈ u.center.subscribers, channel.1 ≠ e.receive.1 := by
  have h : s.Owned := Machine.run_invariant_of_meets owned_step owned_empty hfresh hrun
  have hmem : e.receive ∈ s.center.subscribers := (h.mem_tables he).1
  have hids : e.id ≠ s.ids := Nat.ne_of_lt (h.ids e he)
  -- the device gets the channel that is there, and one of its own to send on
  have hreceive : s.center.registerChannel .sub e.receive.2 receive =
      (some e.receive.1, s.center) := h.center.registerChannel_of_mem hmem receive
  have hsend : s.center.registerChannel .pub sendAddress send =
      (some s.center.sockets, { s.center with sockets := s.center.sockets + 1 }.push .pub
        (s.center.sockets, sendAddress)) := by
    rw [MessageCenter.registerChannel, MessageCenter.find?_table.2 hunused]
    simp [hmade, hbound]
  let device : Endpoint :=
    { id := s.ids, receive := e.receive, send := some (s.center.sockets, sendAddress) }
  have hstart : ∃ center : MessageCenter, s.startRemote e.receive.2 sendAddress receive send =
      { s with center := center, endpoints := s.endpoints ++ [device], ids := s.ids + 1 } ∧
      center.subscribers = s.center.subscribers ∧ ∀ e ∈ s.endpoints, e.id ∈ center.handlers := by
    refine ⟨_, by rw [startRemote, hreceive]; simp only [hsend]; rfl, ?_, fun e he => ?_⟩
    · rw [MessageCenter.addMessageHandler]
      split <;> rfl
    · have hhandler : e.id ∈ s.center.handlers := h.handlers ▸ List.mem_map_of_mem he
      rw [MessageCenter.addMessageHandler]
      split
      · exact hhandler
      · exact List.mem_append_left _ hhandler
  obtain ⟨center, hstart, hsubscribers, hhandlers⟩ := hstart
  have hfind : (s.endpoints ++ [device]).find? (·.id = s.ids) = some device := by
    have hnone : s.endpoints.find? (·.id = s.ids) = none :=
      List.find?_eq_none.2 fun e he => by simpa using Nat.ne_of_lt (h.ids e he)
    rw [List.find?_append, hnone]
    simp [device]
  refine ⟨_, _, congrArg some hstart,
    ⟨device, List.mem_append_right _ (List.mem_singleton.2 rfl), rfl, rfl⟩,
    congrArg some (by rw [Channels.close, hfind]), ?_, ?_, ?_, ?_⟩
  · exact List.mem_filter.2 ⟨List.mem_append_left _ he, decide_eq_true hids⟩
  · exact List.mem_filter.2 ⟨hhandlers e he, decide_eq_true hids⟩
  · rw [← hsubscribers] at hmem
    exact mem_closed_of_removeChannel (mem_closed_removeChannel hmem) _
  · intro channel hchannel
    have hleft := List.mem_filter.1 (List.mem_of_mem_filter hchannel)
    exact of_decide_eq_true hleft.2

/-- A device of another process has been told to receive on `[1]`. -/
def oneRemote : Channels where
  center :=
    { handlers := [0], publishers := [(1, [2])], subscribers := [(0, [1])]
      socketAddress := [(0, [1]), (1, [2])], sockets := 2 }
  endpoints := [{ id := 0, receive := (0, [1]), send := some (1, [2]) }]
  ids := 1

theorem stop_cuts_off_oneRemote : ∃ t u, step oneRemote (.remote [1] [3] {} {}) = some t ∧
    (∃ device ∈ t.endpoints, device.id = 1 ∧ device.receive = (0, [1])) ∧
    step t (.close 1) = some u ∧ 0 ∈ u.center.handlers ∧ 0 ∈ u.center.closed := by
  have hfresh : step.Meets Fresh {} [.remote [1] [2] {} {}] := by decide
  have hrun : step.run {} [.remote [1] [2] {} {}] = some oneRemote := by decide
  have hunused : oneRemote.Unused .pub [3] := by decide
  obtain ⟨t, u, ht, hdevice, hu, -, hhandler, hclosed, -⟩ :=
    stop_cuts_off hfresh hrun List.mem_cons_self hunused {} (show ({} : SocketOutcome).made = true
      from rfl) rfl
  exact ⟨t, u, ht, hdevice, hu, hhandler, hclosed⟩

end Channels

end Dcfpe
