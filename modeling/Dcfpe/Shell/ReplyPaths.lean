import Dcfpe.Shell.RemoteServerNode

/-!
# The two ways of a reply

`ZServer` prepares a reply for each request and has its handler fill it in, either at once, on the
network thread, or later on the UI thread.  Whichever it is, the reply is serialized into a local
string.  `handle_request` returns the string; `pre_handle_request` drops it, so that its caller has
an empty one and sends four zero bytes.

`paths_agree_iff` says for which requests and handlers the sender gets the reply that was built.
The encoding of protocol buffers is a parameter; what is asked of it is that the reply at hand
survives it, and that four zero bytes are read as a message with no field set.
-/

set_option autoImplicit false

namespace Dcfpe.Rs

/-! ## Messages -/

/-- A `Request` with the fields that go back into the reply. -/
structure NamedRequest extends Request where
  name : Text := []
  timestamp : Int := 0

/-- A `Response` with all its fields; `none` is a field that is not set. -/
structure Reply where
  name : Option Text := none
  sessionId : Option Int := none
  errorCode : Option Int := none
  srvUid : Option Int := none
  timestamp : Option Int := none
  requestTimestamp : Option Int := none
  requestId : Option Int := none
  executeCommand : Option ExecuteCommandResponse := none
  fileOperation : Option FileOperationResponse := none
  deriving DecidableEq, Repr

/-- What the accessors return. -/
def Reply.response (rep : Reply) : Response :=
  { sessionId := rep.sessionId.getD 0
    errorCode := rep.errorCode.getD 0
    requestId := rep.requestId.getD 0
    executeCommand := rep.executeCommand
    fileOperation := rep.fileOperation }

/-- The fields that a handler has set are set. -/
def Reply.fill (rep : Reply) (response : Response) : Reply :=
  { rep with
    sessionId := some response.sessionId
    errorCode := some response.errorCode
    requestId := some response.requestId
    executeCommand := response.executeCommand
    fileOperation := response.fileOperation }

/-- `SerializeToString`, and what `ParseFromString` leaves in a new message, whether or not it
succeeds. -/
structure WireFormat where
  serialize : Reply → Text
  parse : Text → Reply

/-- `ZServerHandler`; a `Response&` is a reply that is returned. -/
structure ZServerHandler (σ : Type) where
  preHandleRequest : σ → NamedRequest → Reply → Bool × Reply
  handleRequest : σ → NamedRequest → Reply → σ × Reply

/-! ## The two ways -/

/-- The reply that both ways begin with. -/
def startReply (now : Int) (req : NamedRequest) : Reply :=
  { errorCode := some (-1)
    name := some req.name
    timestamp := some now
    requestId := some req.requestId
    requestTimestamp := some req.timestamp }

/-- What is sent for the string a `RequestHandler` has given. -/
def sendReply (reply : Text) : Text :=
  if reply = [] then List.replicate 4 '\x00' else reply

section Serve

variable {σ : Type} (wire : WireFormat) (handler : ZServerHandler σ)

/-- `ZServer::pre_handle_request`: whether it has handled the request, and `reply`, which it does
not assign. -/
def preHandleRequest (s : σ) (now : Int) (req : NamedRequest) : Bool × Text :=
  ((handler.preHandleRequest s req (startReply now req)).1, [])

/-- `ZServer::handle_request`. -/
def handleRequest (s : σ) (now : Int) (req : NamedRequest) : σ × Text :=
  let (s, rep) := handler.handleRequest s req (startReply now req)
  (s, wire.serialize rep)

/-- A request comes to the network thread at one time, and to the UI thread at a later one if it is
not settled: the state of the handler and the clock then. -/
structure Arrival (σ : Type) where
  onNetwork : σ
  networkTime : Int
  onUI : σ
  uiTime : Int

/-- What the handler does on the network thread. -/
def settle (arrival : Arrival σ) (req : NamedRequest) : Bool × Reply :=
  handler.preHandleRequest arrival.onNetwork req (startReply arrival.networkTime req)

/-- What `ZMQServer` sends for a request. -/
def sentReply (arrival : Arrival σ) (req : NamedRequest) : Text :=
  let (done, reply) := preHandleRequest handler arrival.onNetwork arrival.networkTime req
  if done then sendReply reply
  else sendReply (handleRequest wire handler arrival.onUI arrival.uiTime req).2

/-- The reply that the handler has filled in for the request. -/
def builtReply (arrival : Arrival σ) (req : NamedRequest) : Reply :=
  let (done, rep) := settle handler arrival req
  if done then rep
  else (handler.handleRequest arrival.onUI req (startReply arrival.uiTime req)).2

/-- `MessageSender::handleResponse`: what the callback gets. -/
def receivedReply (arrival : Arrival σ) (req : NamedRequest) : Reply :=
  wire.parse (sentReply wire handler arrival req)

/-! ## Agreement -/

/-- The two replies have the same error code, session id and request id. -/
def SameIds (rep rep' : Reply) : Prop :=
  rep.response.errorCode = rep'.response.errorCode ∧
    rep.response.sessionId = rep'.response.sessionId ∧
    rep.response.requestId = rep'.response.requestId

instance (rep rep' : Reply) : Decidable (SameIds rep rep') :=
  inferInstanceAs (Decidable (_ ∧ _ ∧ _))

theorem sameIds_comm (rep rep' : Reply) : SameIds rep rep' ↔ SameIds rep' rep := by
  simp only [SameIds, eq_comm]

variable {wire} {handler}

theorem sentReply_of_settled (wire : WireFormat) {arrival : Arrival σ} {req : NamedRequest}
    (h : (settle handler arrival req).1 = true) :
    sentReply wire handler arrival req = List.replicate 4 '\x00' ∧
      builtReply handler arrival req = (settle handler arrival req).2 := by
  constructor
  · rw [settle] at h
    simp only [sentReply, preHandleRequest, h, if_true, sendReply]
  · simp only [builtReply, h, if_true]

theorem sentReply_of_posted {arrival : Arrival σ} {req : NamedRequest}
    (h : (settle handler arrival req).1 = false) :
    sentReply wire handler arrival req =
      sendReply (wire.serialize (builtReply handler arrival req)) := by
  rw [settle] at h
  simp only [sentReply, builtReply, settle, preHandleRequest, handleRequest, h,
    Bool.false_eq_true, if_false]

/-- An empty string is sent as four zero bytes, which read the same. -/
theorem parse_sendReply {rep : Reply} (hround : wire.parse (wire.serialize rep) = rep)
    (hempty : wire.parse [] = {}) (hzeros : wire.parse (List.replicate 4 '\x00') = {}) :
    wire.parse (sendReply (wire.serialize rep)) = rep := by
  rw [sendReply]
  split
  · next hnil =>
    rw [hnil, hempty] at hround
    exact hzeros.trans hround
  · exact hround

/-- **When the two ways agree.**  The sender of a request gets the reply that the handler built for
it, with its error code, session id and request id, exactly if the handler left the request to the
UI thread, or settled it and set no field of the reply; and it gets the three numbers exactly if
the handler left the request to the UI thread, or settled it with zeros for them. -/
theorem paths_agree_iff (arrival : Arrival σ) (req : NamedRequest)
    (hround : wire.parse (wire.serialize (builtReply handler arrival req)) =
      builtReply handler arrival req)
    (hempty : wire.parse [] = {}) (hzeros : wire.parse (List.replicate 4 '\x00') = {}) :
    (receivedReply wire handler arrival req = builtReply handler arrival req ∧
        SameIds (receivedReply wire handler arrival req) (builtReply handler arrival req) ↔
      (settle handler arrival req).1 = false ∨ (settle handler arrival req).2 = {}) ∧
    (SameIds (receivedReply wire handler arrival req) (builtReply handler arrival req) ↔
      (settle handler arrival req).1 = false ∨ SameIds (settle handler arrival req).2 {}) := by
  cases hpre : (settle handler arrival req).1 with
  | false =>
    have hreceived : receivedReply wire handler arrival req = builtReply handler arrival req := by
      rw [receivedReply, sentReply_of_posted hpre, parse_sendReply hround hempty hzeros]
    rw [hreceived]
    simp [SameIds]
  | true =>
    obtain ⟨hsent, hbuilt⟩ := sentReply_of_settled wire hpre
    rw [receivedReply, hsent, hzeros, hbuilt, sameIds_comm]
    simp only [Bool.true_eq_false, false_or, iff_self, and_true]
    refine ⟨fun h => h.1.symm, fun h => ?_⟩
    rw [h]
    exact ⟨rfl, rfl, rfl, rfl⟩

end Serve

/-! ## The local node -/

/-- The local node as a handler, with what it has done on the UI thread. -/
def LocalServerNode.handler : ZServerHandler (LocalServerNode × List Deed) where
  preHandleRequest s req rep :=
    match s.1.preHandleRequest req.toRequest rep.response with
    | some response => (true, rep.fill response)
    | none => (false, rep)
  handleRequest s req rep :=
    let (n, response, deeds) := s.1.handleRequest req.toRequest rep.response
    ((n, s.2 ++ deeds), rep.fill response)

theorem settle_localNode (arrival : Arrival (LocalServerNode × List Deed)) (req : NamedRequest) :
    (settle LocalServerNode.handler arrival req).1 =
        (arrival.onNetwork.1.preHandle req.toRequest).isSome ∧
      (settle LocalServerNode.handler arrival req).2 ≠ {} := by
  have hne : ∀ (rep : Reply) response, rep.fill response ≠ {} := by
    intro rep response h
    exact absurd (congrArg Reply.errorCode h) (by simp [Reply.fill])
  have hstart : ∀ now, startReply now req ≠ {} := by
    intro now h
    exact absurd (congrArg Reply.errorCode h) (by simp [startReply])
  have hresponse : ∀ now, (startReply now req).response = prepareReply req.toRequest :=
    fun _ => rfl
  simp only [settle, LocalServerNode.handler, LocalServerNode.preHandle, hresponse]
  cases arrival.onNetwork.1.preHandleRequest req.toRequest (prepareReply req.toRequest) with
  | some response => exact ⟨rfl, hne _ _⟩
  | none => exact ⟨rfl, hstart _⟩

/-- Whatever the local node settles on the network thread is answered with another reply than the
one it has built. -/
theorem localNode_received_iff {wire : WireFormat}
    (arrival : Arrival (LocalServerNode × List Deed)) (req : NamedRequest)
    (hround : wire.parse (wire.serialize (builtReply LocalServerNode.handler arrival req)) =
      builtReply LocalServerNode.handler arrival req)
    (hempty : wire.parse [] = {}) (hzeros : wire.parse (List.replicate 4 '\x00') = {}) :
    receivedReply wire LocalServerNode.handler arrival req =
        builtReply LocalServerNode.handler arrival req ↔
      arrival.onNetwork.1.preHandle req.toRequest = none := by
  obtain ⟨hsettle, hne⟩ := settle_localNode arrival req
  cases hpre : arrival.onNetwork.1.preHandle req.toRequest with
  | some payload =>
    rw [hpre, Option.isSome_some] at hsettle
    obtain ⟨hsent, hbuilt⟩ := sentReply_of_settled wire hsettle
    rw [receivedReply, hsent, hzeros, hbuilt]
    simp only [reduceCtorEq, iff_false]
    exact Ne.symm hne
  | none =>
    rw [hpre, Option.isSome_none] at hsettle
    rw [receivedReply, sentReply_of_posted hsettle, parse_sendReply hround hempty hzeros]
    simp

/-- The reply to a heart beat in session 1, with its bytes. -/
def beatReply : Reply :=
  { name := some []
    sessionId := some 1
    errorCode := some 0
    timestamp := some 0
    requestTimestamp := some 0
    requestId := some 7 }

def beatBytes : Text :=
  "\x0a\x00\x10\x01\x18\x00\xa0\x06\x00\xc0\x0c\x00\xc8\x0c\x07".toList

def beatWire : WireFormat where
  serialize rep := if rep = beatReply then beatBytes else []
  parse data := if data = beatBytes then beatReply else {}

/-- The local node of session 1, and the request that comes to it. -/
def beatArrival : Arrival (LocalServerNode × List Deed) where
  onNetwork := ({ sessionId := 1 }, [])
  networkTime := 0
  onUI := ({ sessionId := 1 }, [])
  uiTime := 0

def beatRequest : NamedRequest := { sessionId := 1, requestId := 7, sessionHeartBeat := true }

theorem beat_paths : ¬ receivedReply beatWire LocalServerNode.handler beatArrival beatRequest =
    builtReply LocalServerNode.handler beatArrival beatRequest := by
  have h := @paths_agree_iff _ beatWire LocalServerNode.handler beatArrival beatRequest (by decide)
    (by decide) (by decide)
  intro heq
  exact absurd (h.1.1 ⟨heq, heq ▸ ⟨rfl, rfl, rfl⟩⟩) (by decide)

/-- The heart beat of session 1 is answered with a reply of session 0. -/
theorem beat_answered_by_default :
    ¬ ∀ (wire : WireFormat) (handler : ZServerHandler (LocalServerNode × List Deed))
        (arrival : Arrival (LocalServerNode × List Deed)) (req : NamedRequest),
      wire.parse (wire.serialize (builtReply handler arrival req)) =
          builtReply handler arrival req →
        wire.parse [] = {} → wire.parse (List.replicate 4 '\x00') = {} →
        receivedReply wire handler arrival req = builtReply handler arrival req ∧
          SameIds (receivedReply wire handler arrival req) (builtReply handler arrival req) := by
  intro h
  have hagree := h beatWire LocalServerNode.handler beatArrival beatRequest (by decide)
    (by decide) (by decide)
  have hsettled := (localNode_received_iff beatArrival beatRequest (by decide) (by decide)
    (by decide)).1 hagree.1
  exact absurd hsettled (by decide)

end Dcfpe.Rs
