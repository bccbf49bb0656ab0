import Dcfpe.Shell.RemoteServerNode
import Dcfpe.Lib.Machine

/-!
# The session handshake

A local node asks the listener for a session.  The listener starts a remote node for it and
answers; the remote node asks the local node to take it as the executor of that session.  Nothing
orders the two messages that travel to the local node: the request of the remote node may come
before the listener's answer has been processed, when the local node has no session id yet.

Such a request is refused on the network thread, and the refusal is what goes wrong: it is sent as
four zero bytes, which the remote node reads as success.  `agreement_iff` says that this is all
that goes wrong: the parties agree in exactly the runs in which the remote node is not answered so.
-/

set_option autoImplicit false

namespace Dcfpe.Rs

/-- The way of the one request the remote node has under way at a time. -/
inductive Trip where
  | idle
  /-- Sent to the local node. -/
  | sent (req : Request)
  /-- Posted to the UI thread of the local node. -/
  | posted (req : Request)
  /-- Settled; `differed` says that this was on the network thread, by a local node whose session id
  was another one. -/
  | settled (req : Request) (differed : Bool) (payload : Payload)
  deriving DecidableEq, Repr

structure Handshake where
  loc : LocalServerNode
  listener : ListenerNode
  /-- The request for a session, on its way to the listener. -/
  request : Option Request
  /-- The listener's reply, on its way back. -/
  reply : Option Response := none
  /-- The callback of the local node is still to come. -/
  connecting : Bool := true
  /-- The process the listener has started, before it runs. -/
  process : Option RsProcess := none
  remote : Option RemoteServerNode := none
  /-- The callback of the remote node is still to come. -/
  waiting : Bool := false
  heartBeatDue : Bool := false
  trip : Trip := .idle
  /-- The remote node has seen its `CreateSession` succeed. -/
  created : Bool := false
  deriving DecidableEq, Repr

namespace Handshake

/-- The requests among some deeds. -/
def requests (deeds : List Deed) : List Request :=
  deeds.filterMap fun | .send _ req _ _ => some req | _ => none

/-- The local node has asked the listener at `target`, which has given out `sessions` ids before. -/
def start (address target : String) (sessions : Nat) : Handshake :=
  let (loc, deeds) := LocalServerNode.connectToTarget { address := address } target
  { loc := loc
    listener := { nextSessionId := sessions }
    request := (requests deeds).head? }

inductive Action where
  /-- The listener takes the request; the process it starts runs or does not. -/
  | listen (starts : Bool)
  | listenerReply
  | listenerTimeOut
  /-- The process of the remote node is up and has a server at this address. -/
  | remoteStart (ip : String) (port : Nat)
  /-- The request of the remote node reaches the network thread of the local node. -/
  | arrive
  /-- The UI thread of the local node takes it. -/
  | handle
  /-- The remote node gets the answer. -/
  | answer
  | answerTimeOut
  /-- The time of the next heart beat has come. -/
  | heartBeat
  deriving DecidableEq, Repr

/-- What the remote node does in a callback. -/
def remoteDeed (s : Handshake) : RemoteDeed → Handshake
  | .send _ req => { s with trip := .sent req, waiting := true }
  | .scheduleHeartBeat => { s with heartBeatDue := true }
  | .willStop => s

/-- The callback of the request `req` of the remote node. -/
def remoteCallback (s : Handshake) (req : Request) (answer : Answer) : Handshake :=
  let s := { s with waiting := false }
  if req.createSession.isSome then
    { s with created := s.created || answer.succeeds }.remoteDeed
      (RemoteServerNode.handleCreateSessionResponse answer)
  else s.remoteDeed (RemoteServerNode.handleHeartBeatResponse answer)

def step : Machine Handshake Action
  | s, .listen starts =>
    match s.request with
    | some req =>
      let (listener, reply, process) := s.listener.handleRequest req (prepareReply req)
      some
        { s with
          listener := listener
          request := none
          reply := some reply
          process := if starts then process else none }
    | none => none
  | s, .listenerReply =>
    match s.reply with
    | some reply =>
      if s.connecting then
        some
          { s with
            loc := (s.loc.handleCreateSessionResponse (.ok reply)).1
            reply := none
            connecting := false }
      else none
    | none => none
  | s, .listenerTimeOut =>
    if s.connecting then
      some { s with loc := (s.loc.handleCreateSessionResponse .timeOut).1, connecting := false }
    else none
  | s, .remoteStart ip port =>
    match s.process with
    | some process =>
      let (remote, deed) :=
        RemoteServerNode.connectToHost { address := makeZMQTCPAddress ip port } process.host
          (atoi process.sid)
      some ({ s with process := none, remote := some remote }.remoteDeed deed)
    | none => none
  | s, .arrive =>
    match s.trip with
    | .sent req =>
      match s.loc.preHandle req with
      | some payload =>
        some { s with trip := .settled req (decide (req.sessionId ≠ s.loc.sessionId)) payload }
      | none => some { s with trip := .posted req }
    | _ => none
  | s, .handle =>
    match s.trip with
    | .posted req =>
      let (loc, payload, _) := s.loc.handle req
      some { s with loc := loc, trip := .settled req false payload }
    | _ => none
  | s, .answer =>
    match s.trip with
    | .settled req _ payload =>
      if s.waiting then
        some ({ s with trip := .idle }.remoteCallback req (.ok (readPayload payload)))
      else none
    | _ => none
  | s, .answerTimeOut =>
    if s.waiting then some { s with waiting := false } else none
  | s, .heartBeat =>
    match s.remote with
    | some remote =>
      if s.heartBeatDue then
        let (remote, deed) := remote.checkHeartBeatImpl
        some ({ s with heartBeatDue := false, remote := some remote }.remoteDeed deed)
      else none
    | none => none

/-! ## Agreement -/

/-- If the remote node has seen its `CreateSession` succeed, the local node has the same session and
has recorded the remote node's address. -/
def Agrees (s : Handshake) : Prop :=
  s.created = true → ∀ remote ∈ s.remote,
    s.loc.sessionId = remote.sessionId ∧ s.loc.executorAddress = remote.address

/-- The next answer is a heart beat's, and is read as success. -/
def SeesHeartBeat (s : Handshake) (a : Action) : Prop :=
  ∃ req differed payload, a = .answer ∧ s.trip = .settled req differed payload ∧
    s.waiting = true ∧ req.sessionHeartBeat = true ∧ (Answer.ok (readPayload payload)).succeeds

/-- The step keeps the agreement, and shows a successful heart beat only to a remote node with the
session of the local node. -/
def Agreeing (s : Handshake) (a : Action) : Prop :=
  ∀ t, step s a = some t → t.Agrees ∧
    (s.SeesHeartBeat a → ∀ remote ∈ s.remote, remote.sessionId = s.loc.sessionId)

/-- The remote node is given the answer to a `CreateSession` that came to the local node while the
two session ids differed. -/
def SeesRefusal (s : Handshake) (a : Action) : Prop :=
  ∃ req payload, a = .answer ∧ s.trip = .settled req true payload ∧ s.waiting = true ∧
    req.createSession.isSome

/-! ## What each phase of a request knows -/

/-- The local node is in the session of the remote node, for good, and has recorded it. -/
def Held (s : Handshake) (r : RemoteServerNode) : Prop :=
  s.loc.sessionId = r.sessionId ∧ s.loc.executorAddress = r.address ∧ s.connecting = false

/-- The remote node has not been created, and the local node knows of none. -/
def Unknown (s : Handshake) : Prop := s.created = false ∧ s.loc.executorAddress = ""

/-- The request is the `CreateSession` of the remote node. -/
structure Creates (r : RemoteServerNode) (req : Request) : Prop where
  session : req.sessionId = r.sessionId
  create : req.createSession = some { address := r.address }
  noBeat : req.sessionHeartBeat = false
  noOutput : req.executeOutput = none

/-- The request is a heart beat of the remote node. -/
structure Beats (r : RemoteServerNode) (req : Request) : Prop where
  session : req.sessionId = r.sessionId
  create : req.createSession = none
  beat : req.sessionHeartBeat = true

def Phase (s : Handshake) (r : RemoteServerNode) : Trip → Prop
  | .idle => s.waiting = false ∧
    (s.created = true ∧ s.Held r ∨ s.created = false ∧ s.heartBeatDue = false)
  | .sent req => Creates r req ∧ s.Unknown ∧ s.heartBeatDue = false ∨
    Beats r req ∧ s.created = true ∧ s.Held r ∧ s.heartBeatDue = false
  | .posted req => Creates r req ∧ s.Unknown ∧ s.heartBeatDue = false ∧
    s.loc.sessionId = r.sessionId ∧ s.connecting = false
  | .settled req true payload => Creates r req ∧ s.Unknown ∧ s.heartBeatDue = false ∧
    payload = none
  | .settled req false _ =>
    Creates r req ∧ s.created = false ∧ s.Held r ∧ s.heartBeatDue = false ∨
    Beats r req ∧ s.created = true ∧ s.Held r ∧ s.heartBeatDue = false

/-- The remote node is there, and the one request it has under way is in its phase. -/
structure Running (s : Handshake) (r : RemoteServerNode) : Prop where
  session : 0 ≤ r.sessionId
  address : r.address ≠ ""
  request : s.request = none
  process : s.process = none
  phase : s.Phase r s.trip

/-- There is no remote node yet. -/
structure Waiting (s : Handshake) : Prop where
  unknown : s.Unknown
  waiting : s.waiting = false
  heartBeatDue : s.heartBeatDue = false
  trip : s.trip = .idle
  /-- The listener starts one process for the one request it gets. -/
  process : ∀ p ∈ s.process, 0 ≤ p.sid ∧ s.request = none

structure Inv (s : Handshake) : Prop where
  session : s.connecting = true → s.loc.sessionId = -1
  listener : 0 ≤ s.listener.nextSessionId
  noRemote : s.remote = none → s.Waiting
  running : ∀ r, s.remote = some r → s.Running r

/-- In a phase, a remote node that has been created is held. -/
theorem Phase.held {s : Handshake} {r : RemoteServerNode} {trip : Trip} (h : s.Phase r trip)
    (hc : s.created = true) : s.Held r := by
  have hno : s.created ≠ false := by simp [hc]
  match trip, h with
  | .idle, h => exact (h.2.resolve_right fun h => hno h.1).2
  | .sent req, h => exact (h.resolve_left fun h => hno h.2.1.1).2.2.1
  | .posted req, h => exact absurd h.2.1.1 hno
  | .settled req true payload, h => exact absurd h.2.1.1 hno
  | .settled req false payload, h => exact (h.resolve_left fun h => hno h.2.1).2.2.1

theorem Inv.agrees {s : Handshake} (h : s.Inv) : s.Agrees := by
  intro hc remote hr
  obtain ⟨hsession, haddress, -⟩ := (h.running remote hr).phase.held hc
  exact ⟨hsession, haddress⟩

theorem makeZMQTCPAddress_ne_empty (ip : String) (port : Nat) : makeZMQTCPAddress ip port ≠ "" := by
  intro h
  have := congrArg String.length h
  simp [makeZMQTCPAddress, String.length_append] at this

theorem inv_start (address target : String) (sessions : Nat) :
    (start address target sessions).Inv :=
  ⟨fun _ => rfl, Int.natCast_nonneg sessions,
    fun _ => ⟨⟨rfl, rfl⟩, rfl, rfl, rfl, by rintro p ⟨⟩⟩, by rintro r ⟨⟩⟩

/-! ## The steps -/

/-- When the local node hears from the listener, no remote node is held yet, and what the phases
know of the others does not change. -/
theorem Phase.connected {s : Handshake} {r : RemoteServerNode} {trip : Trip} (h : s.Phase r trip)
    (hc : s.connecting = true) {loc : LocalServerNode}
    (haddr : loc.executorAddress = s.loc.executorAddress) (reply : Option Response) :
    Phase { s with loc := loc, reply := reply, connecting := false } r trip := by
  have hno : ¬ s.Held r := fun hh => by rw [hh.2.2] at hc; cases hc
  have hu : s.Unknown → Unknown { s with loc := loc, reply := reply, connecting := false } :=
    fun hu => ⟨hu.1, haddr.trans hu.2⟩
  match trip, h with
  | .idle, h => exact ⟨h.1, .inr (h.2.resolve_left fun h => hno h.2)⟩
  | .sent req, h =>
    obtain ⟨hcr, hun, hdue⟩ := h.resolve_right fun h => hno h.2.2.1
    exact .inl ⟨hcr, hu hun, hdue⟩
  | .posted req, h => rw [h.2.2.2.2] at hc; cases hc
  | .settled req true payload, h => exact ⟨h.1, hu h.2.1, h.2.2⟩
  | .settled req false payload, h =>
    rcases h with h | h <;> exact absurd h.2.2.1 hno

theorem Inv.connected {s : Handshake} (h : s.Inv) (hc : s.connecting = true)
    {loc : LocalServerNode} (haddr : loc.executorAddress = s.loc.executorAddress)
    (reply : Option Response) : Inv { s with loc := loc, reply := reply, connecting := false } := by
  refine ⟨by simp, h.listener, fun hr => ?_, fun r hr => ?_⟩
  · obtain ⟨hu, hw, hd, ht, hp⟩ := h.noRemote hr
    exact ⟨⟨hu.1, haddr.trans hu.2⟩, hw, hd, ht, hp⟩
  · obtain ⟨hs, ha, hreq, hp, hph⟩ := h.running r hr
    exact ⟨hs, ha, hreq, hp, hph.connected hc haddr reply⟩

theorem executorAddress_handleCreateSessionResponse (n : LocalServerNode) (answer : Answer) :
    (n.handleCreateSessionResponse answer).1.executorAddress = n.executorAddress := by
  cases answer with
  | timeOut => rfl
  | ok reply =>
    simp only [LocalServerNode.handleCreateSessionResponse]
    split <;> rfl

/-- Only a remote node that is there has a request under way. -/
theorem Inv.of_trip {s : Handshake} (h : s.Inv) (ht : s.trip ≠ .idle) :
    ∃ r, s.remote = some r ∧ s.Running r := by
  cases hrem : s.remote with
  | none => exact absurd (h.noRemote hrem).trip ht
  | some r => exact ⟨r, rfl, h.running r hrem⟩

/-- The phases do not look at where the request is. -/
theorem Phase.setTrip {s : Handshake} {r : RemoteServerNode} {trip : Trip} (h : s.Phase r trip)
    (trip' : Trip) : Phase { s with trip := trip' } r trip := by
  match trip, h with
  | .idle, h => exact h
  | .sent req, h => exact h
  | .posted req, h => exact h
  | .settled req true payload, h => exact h
  | .settled req false payload, h => exact h

theorem Inv.setTrip {s : Handshake} (h : s.Inv) {r : RemoteServerNode} (hrem : s.remote = some r)
    {trip : Trip} (hph : s.Phase r trip) : Inv { s with trip := trip } := by
  refine ⟨h.session, h.listener, fun hno => ?_, fun r' hr' => ?_⟩
  · rw [show s.remote = none from hno] at hrem; cases hrem
  · obtain rfl : r = r' := Option.some_inj.1 (hrem.symm.trans hr')
    obtain ⟨hsid, haddr, hreq, hproc, -⟩ := h.running r hrem
    exact ⟨hsid, haddr, hreq, hproc, hph.setTrip trip⟩

theorem preHandle_eq (n : LocalServerNode) (req : Request) :
    n.preHandle req =
      if req.sessionId ≠ n.sessionId ∨ req.sessionHeartBeat = true then some none else none := by
  rw [LocalServerNode.preHandle, LocalServerNode.preHandleRequest]
  by_cases h1 : req.sessionId = n.sessionId <;> by_cases h2 : req.sessionHeartBeat = true <;>
    simp [h1, h2]

theorem inv_arrive {s t : Handshake} (h : s.Inv) (hs : step s .arrive = some t) : t.Inv := by
  simp only [step] at hs
  split at hs
  · next req ht =>
    obtain ⟨r, hrem, hr⟩ := h.of_trip (by rw [ht]; rintro ⟨⟩)
    have hp := hr.phase
    rw [ht] at hp
    have hinv := fun trip (hph : s.Phase r trip) => h.setTrip hrem hph
    rw [preHandle_eq] at hs
    rcases hp with ⟨hcr, hun, hdue⟩ | ⟨hb, hcreated, hheld, hdue⟩
    · rw [hcr.noBeat, hcr.session] at hs
      by_cases hsame : r.sessionId = s.loc.sessionId
      · rw [if_neg (by simp [hsame]), Option.some_inj] at hs
        have hconn : s.connecting = false := by
          by_contra hc
          rw [Bool.not_eq_false] at hc
          have := h.session hc
          have := hr.session
          omega
        exact hs ▸ hinv _ ⟨hcr, hun, hdue, hsame.symm, hconn⟩
      · rw [if_pos (.inl hsame)] at hs
        simp only [hsame, Option.some_inj, ne_eq, not_false_eq_true, decide_true] at hs
        exact hs ▸ hinv _ ⟨hcr, hun, hdue, rfl⟩
    · rw [if_pos (.inr hb.beat), hb.session] at hs
      simp only [hheld.1, Option.some_inj, ne_eq, not_true_eq_false, decide_false] at hs
      exact hs ▸ hinv _ (.inr ⟨hb, hcreated, hheld, hdue⟩)
  · cases hs

theorem inv_handle {s t : Handshake} (h : s.Inv) (hs : step s .handle = some t) : t.Inv := by
  simp only [step] at hs
  split at hs
  · next req ht =>
    obtain ⟨r, hrem, hr⟩ := h.of_trip (by rw [ht]; rintro ⟨⟩)
    have hp := hr.phase
    rw [ht] at hp
    obtain ⟨hcr, hun, hdue, hsession, hconn⟩ := hp
    simp only [LocalServerNode.handle, LocalServerNode.handleRequest, hcr.session, hsession,
      hcr.noOutput, hcr.create, ne_eq, not_true_eq_false, if_false, Option.some_inj] at hs
    rw [← hs]
    refine ⟨fun hc => ?_, h.listener, fun hno => ?_, fun r' hr' => ?_⟩
    · rw [show s.connecting = true from hc] at hconn; cases hconn
    · rw [show s.remote = none from hno] at hrem; cases hrem
    · obtain rfl : r = r' := Option.some_inj.1 (hrem.symm.trans hr')
      exact ⟨hr.session, hr.address, hr.request, hr.process,
        .inl ⟨hcr, hun.1, ⟨rfl, rfl, hconn⟩, hdue⟩⟩
  · cases hs

theorem listener_spec {n : ListenerNode} (hn : 0 ≤ n.nextSessionId) (req : Request)
    (reply : Response) :
    0 ≤ (n.handleRequest req reply).1.nextSessionId ∧
      ∀ p ∈ (n.handleRequest req reply).2.2, 0 ≤ p.sid := by
  simp only [ListenerNode.handleRequest]
  split
  · refine ⟨Int.le_add_one hn, fun p hp => ?_⟩
    rw [← Option.some_inj.1 hp]
    exact hn
  · exact ⟨hn, by rintro p ⟨⟩⟩

theorem inv_listen {s t : Handshake} (h : s.Inv) {starts : Bool}
    (hs : step s (.listen starts) = some t) : t.Inv := by
  simp only [step] at hs
  split at hs
  · next req hreq =>
    obtain rfl := Option.some_inj.1 hs
    have hrem : s.remote = none := by
      cases hr : s.remote with
      | none => rfl
      | some r => have := (h.running r hr).request; rw [hreq] at this; cases this
    obtain ⟨hun, hw, hdue, ht, -⟩ := h.noRemote hrem
    obtain ⟨hlis, hsid⟩ := listener_spec h.listener req (prepareReply req)
    refine ⟨h.session, hlis, fun _ => ⟨hun, hw, hdue, ht, fun p hp => ⟨?_, rfl⟩⟩, fun r hr => ?_⟩
    · cases starts with
      | true => exact hsid p hp
      | false => cases hp
    · rw [show s.remote = some r from hr] at hrem; cases hrem
  · cases hs

theorem inv_remoteStart {s t : Handshake} (h : s.Inv) {ip : String} {port : Nat}
    (hs : step s (.remoteStart ip port) = some t) : t.Inv := by
  simp only [step] at hs
  split at hs
  · next p hp =>
    obtain rfl := Option.some_inj.1 hs
    have hrem : s.remote = none := by
      cases hr : s.remote with
      | none => rfl
      | some r => have := (h.running r hr).process; rw [hp] at this; cases this
    obtain ⟨hun, hw, hdue, -, hproc⟩ := h.noRemote hrem
    obtain ⟨hsid, hreq⟩ := hproc p hp
    refine ⟨h.session, h.listener, by rintro ⟨⟩, fun r hr => ?_⟩
    obtain rfl := Option.some_inj.1 hr
    refine ⟨?_, makeZMQTCPAddress_ne_empty ip port, hreq, rfl, .inl ⟨?_, hun, hdue⟩⟩
    · simp only [RemoteServerNode.connectToHost, atoi]
      omega
    · exact ⟨rfl, rfl, rfl, rfl⟩
  · cases hs

theorem inv_heartBeat {s t : Handshake} (h : s.Inv) (hs : step s .heartBeat = some t) :
    t.Inv := by
  simp only [step] at hs
  split at hs
  · next r hrem =>
    split at hs
    · next hdue =>
      obtain rfl := Option.some_inj.1 hs
      have hr := h.running r hrem
      refine ⟨h.session, h.listener, by rintro ⟨⟩, fun r' hr' => ?_⟩
      obtain rfl := Option.some_inj.1 hr'
      refine ⟨hr.session, hr.address, hr.request, hr.process, .inr ⟨⟨rfl, rfl, rfl⟩, ?_⟩⟩
      have hno : s.heartBeatDue ≠ false := by simp [hdue]
      have hp := hr.phase
      -- a heart beat is due only when nothing is under way
      match ht : s.trip, hp with
      | .idle, hp =>
        obtain ⟨hcreated, hheld⟩ := hp.2.resolve_right fun h => hno h.2
        exact ⟨hcreated, hheld, rfl⟩
      | .sent req, hp => exact absurd (hp.elim (fun h => h.2.2) fun h => h.2.2.2) hno
      | .posted req, hp => exact absurd hp.2.2.1 hno
      | .settled req true payload, hp => exact absurd hp.2.2.1 hno
      | .settled req false payload, hp =>
        exact absurd (hp.elim (fun h => h.2.2.2) fun h => h.2.2.2) hno
    · cases hs
  · cases hs

/-- The remote node is answered, and not with the four zero bytes of a refusal. -/
theorem inv_answer {s t : Handshake} (h : s.Inv) (hC : ¬ s.SeesRefusal .answer)
    (hs : step s .answer = some t) : t.Inv := by
  simp only [step] at hs
  split at hs
  · next req differed payload ht =>
    split at hs
    · next hw =>
      obtain rfl := Option.some_inj.1 hs
      obtain ⟨r, hrem, hr⟩ := h.of_trip (by rw [ht]; rintro ⟨⟩)
      have hp := hr.phase
      rw [ht] at hp
      cases differed with
      | true =>
        have hcr : req.createSession.isSome := by rw [hp.1.create]; rfl
        exact absurd ⟨req, payload, rfl, ht, hw, hcr⟩ hC
      | false =>
        have hkeep : ∀ (created heartBeatDue : Bool), (created = true → s.Held r) →
            (created = false → heartBeatDue = false) →
            Inv { s with trip := .idle, waiting := false, created := created,
                         heartBeatDue := heartBeatDue } := by
          intro created heartBeatDue hc hd
          refine ⟨h.session, h.listener, fun hno => ?_, fun r' hr' => ?_⟩
          · rw [show s.remote = none from hno] at hrem; cases hrem
          · obtain rfl : r = r' := Option.some_inj.1 (hrem.symm.trans hr')
            refine ⟨hr.session, hr.address, hr.request, hr.process, rfl, ?_⟩
            cases created with
            | true => exact .inl ⟨rfl, hc rfl⟩
            | false => exact .inr ⟨rfl, hd rfl⟩
        rcases hp with ⟨hcr, hno, hheld, hdue⟩ | ⟨hb, hcreated, hheld, hdue⟩
        · simp only [remoteCallback, hcr.create, Option.isSome_some, if_true,
            RemoteServerNode.handleCreateSessionResponse]
          cases hsucc : Answer.succeeds (.ok (readPayload payload)) with
          | true => exact hkeep _ true (fun _ => hheld) (by simp)
          | false =>
            have hdue' := hkeep (s.created || false) s.heartBeatDue (fun _ => hheld) fun _ => hdue
            simpa [remoteDeed] using hdue'
        · simp only [remoteCallback, hb.create, Option.isSome_none,
            RemoteServerNode.handleHeartBeatResponse]
          cases hsucc : Answer.succeeds (.ok (readPayload payload)) with
          | true =>
            have := hkeep s.created true (fun _ => hheld) (by simp [hcreated])
            simpa [remoteDeed] using this
          | false =>
            have := hkeep s.created s.heartBeatDue (fun _ => hheld) (by simp [hcreated])
            simpa [remoteDeed] using this
    · cases hs
  · cases hs

theorem inv_answerTimeOut {s t : Handshake} (h : s.Inv) (hs : step s .answerTimeOut = some t) :
    t.Inv := by
  simp only [step] at hs
  split at hs
  · next hw =>
    obtain rfl := Option.some_inj.1 hs
    refine ⟨h.session, h.listener, fun hno => ?_, fun r hr => ?_⟩
    · have := (h.noRemote hno).waiting
      rw [hw] at this
      cases this
    · obtain ⟨hsid, haddr, hreq, hproc, hp⟩ := h.running r hr
      refine ⟨hsid, haddr, hreq, hproc, ?_⟩
      match ht : s.trip, hp with
      | .idle, hp => exact ⟨rfl, hp.2⟩
      | .sent req, hp => exact hp
      | .posted req, hp => exact hp
      | .settled req true payload, hp => exact hp
      | .settled req false payload, hp => exact hp
  · cases hs

theorem inv_step {s t : Handshake} {a : Action} (h : s.Inv) (hC : ¬ s.SeesRefusal a)
    (hs : step s a = some t) : t.Inv := by
  cases a with
  | listen starts => exact inv_listen h hs
  | listenerReply =>
    simp only [step] at hs
    split at hs
    · split at hs
      · next hc =>
        rw [← Option.some_inj.1 hs]
        exact h.connected hc (executorAddress_handleCreateSessionResponse _ _) none
      · cases hs
    · cases hs
  | listenerTimeOut =>
    simp only [step] at hs
    split at hs
    · next hc =>
      rw [← Option.some_inj.1 hs]
      exact h.connected hc (executorAddress_handleCreateSessionResponse _ _) s.reply
    · cases hs
  | remoteStart ip port => exact inv_remoteStart h hs
  | arrive => exact inv_arrive h hs
  | handle => exact inv_handle h hs
  | answer => exact inv_answer h hC hs
  | answerTimeOut => exact inv_answerTimeOut h hs
  | heartBeat => exact inv_heartBeat h hs

/-! ## What the remote node sees -/

/-- A heart beat that is seen to succeed was answered in the session of the local node. -/
theorem Inv.seesHeartBeat {s : Handshake} (h : s.Inv) {a : Action} (hb : s.SeesHeartBeat a) :
    ∀ remote ∈ s.remote, remote.sessionId = s.loc.sessionId := by
  intro r hr
  obtain ⟨req, differed, payload, -, ht, -, hbeat, -⟩ := hb
  have hp := (h.running r hr).phase
  rw [ht] at hp
  have hno : ¬ Creates r req := fun hc => by rw [hc.noBeat] at hbeat; cases hbeat
  cases differed with
  | true => exact absurd hp.1 hno
  | false => exact (hp.resolve_left fun h => hno h.1).2.2.1.1.symm

/-- A refusal is read as success, and the local node knows nothing of the remote node. -/
theorem Inv.not_agrees_of_seesRefusal {s t : Handshake} (h : s.Inv) {a : Action}
    (hr : s.SeesRefusal a) (hs : step s a = some t) : ¬ t.Agrees := by
  obtain ⟨req, payload, rfl, ht, hw, hcr⟩ := hr
  obtain ⟨r, hrem, hrun⟩ := h.of_trip (by rw [ht]; rintro ⟨⟩)
  have hp := hrun.phase
  rw [ht] at hp
  obtain ⟨-, hun, -, rfl⟩ := hp
  simp only [step, ht, hw, if_true, remoteCallback, hcr] at hs
  obtain rfl := Option.some_inj.1 hs
  intro hag
  obtain ⟨-, haddr⟩ := hag (Bool.or_true _) r hrem
  exact hrun.address (haddr.symm.trans hun.2)

theorem step_of_seesRefusal {s : Handshake} {a : Action} (hr : s.SeesRefusal a) :
    ∃ t, step s a = some t := by
  obtain ⟨req, payload, rfl, ht, hw, -⟩ := hr
  simp [step, ht, hw]

/-- **When the parties agree.**  In every state of a run a remote node that has seen its
`CreateSession` succeed has the session of the local node, which has recorded its address, and a
successful heart beat is seen only in this session — in exactly the runs in which the remote node
is not given the answer to a `CreateSession` that came to the local node while the session ids
differed. -/
theorem agreement_iff (address target : String) (sessions : Nat) (as : List Action) :
    step.Meets Agreeing (start address target sessions) as ↔
      step.Meets (fun s a => ¬ s.SeesRefusal a) (start address target sessions) as := by
  refine (Machine.meets_congr (P := Inv) (fun s a t h hC hs => inv_step h hC hs)
    (fun s a h => ⟨fun hC t hs => ?_, fun hag hr => ?_⟩) (inv_start address target sessions)).symm
  · exact ⟨(inv_step h hC hs).agrees, h.seesHeartBeat⟩
  · obtain ⟨t, hs⟩ := step_of_seesRefusal hr
    exact h.not_agrees_of_seesRefusal hr hs (hag t hs).1

/-- The remote node is faster than the listener's reply. -/
theorem refusal_seen_as_success :
    ¬ step.Meets Agreeing (start "tcp://10.0.0.1:3331" "tcp://10.0.0.2:3330" 0)
      [.listen true, .remoteStart "10.0.0.2" 3400, .arrive, .listenerReply, .answer] := by
  intro h
  have hlast := ((((h.2 _ rfl).2 _ rfl).2 _ rfl).2 _ rfl).1
  obtain ⟨-, haddr⟩ := (hlast _ rfl).1 rfl _ rfl
  exact absurd haddr (by decide)

end Handshake

end Dcfpe.Rs
