import Dcfpe.Dpe.MasterRecords
import Dcfpe.Dpe.WorkerNode

/-!
# The master, the workers and the messages between them

`Cluster` is one run of a master with any number of worker processes.  A request of a worker is in
`toMaster` until the master takes it; the reply is in `toWorker` until the worker's ZMQ client takes
it for the socket that sent the request.  Both are bags: any message may go next, and any may be
lost.  A request whose time is up is given up by its worker alone: the request, or its reply, is
still on the way, and a reply that finds no socket is dropped.

`Stepped` lists what a step can do, and every invariant of the cluster is derived from that.
-/

set_option autoImplicit false

namespace Dcfpe

/-- A worker process: the flags it was started with, and its state. -/
structure Site where
  flags : Flags := {}
  node : Worker := {}
  deriving DecidableEq, Repr

/-- A request on its way to the master. -/
structure Packet where
  worker : Nat
  socket : Nat
  req : Request
  deriving DecidableEq, Repr

/-- A reply on its way back, to the socket that sent the request. -/
structure Reply where
  worker : Nat
  socket : Nat
  rep : Response
  deriving DecidableEq, Repr

structure Cluster where
  master : Master := {}
  workers : List Site := []
  toMaster : List Packet := []
  toWorker : List Reply := []

namespace Cluster

variable (tf : TextFormat) (timing : Timing)

inductive Action where
  /-- A worker process is started. -/
  | launch (flags : Flags) (myIp : String) (now : Int) (sent : Nat → Bool)
  /-- The master handles a request and replies. -/
  | serve (k : Nat) (clk : Clock) (responseTime : Int)
  | loseRequest (k : Nat)
  | loseReply (k : Nat)
  /-- A reply reaches the ZMQ client of its worker. -/
  | deliver (k : Nat)
  /-- The time of a request is up. -/
  | timeOut (i k : Nat)
  /-- A pool thread of a worker computes a batch. -/
  | compute (i k : Nat) (result timeUsage : List Int) (totalTime : Int)
  /-- The UI thread of a worker runs its next task. -/
  | ui (i : Nat) (now : Int) (sent : Bool)
  /-- The main loop of a worker ends. -/
  | endMainLoop (i : Nat)

/-- The requests a worker has sent, with its index as the return address. -/
def post (i : Nat) (out : List Outgoing) : List Packet :=
  out.map fun o => { worker := i, socket := o.socket, req := o.req }

/-- A step of worker `i`. -/
def actAt (c : Cluster) (i : Nat) (a : Worker.Action) : Option Cluster :=
  match c.workers[i]? with
  | none => none
  | some site =>
    match site.node.act site.flags timing a with
    | none => none
    | some (w, out) =>
      some { c with
        workers := c.workers.set i { site with node := w }
        toMaster := c.toMaster ++ post i out }

/-- The place of a socket in the `context_` of worker `i`. -/
def socketIdx (c : Cluster) (i socket : Nat) : Option Nat :=
  match c.workers[i]? with
  | none => none
  | some site => site.node.context.findIdx? (·.1 == socket)

/-- One step of the cluster. -/
def step : Machine Cluster Action
  | c, .launch flags myIp now sent =>
    let (w, out) := Worker.run flags myIp now sent
    some { c with
      workers := c.workers ++ [{ flags := flags, node := w }]
      toMaster := c.toMaster ++ post c.workers.length out }
  | c, .serve k clk responseTime =>
    match c.toMaster[k]? with
    | none => none
    | some p =>
      let m := c.master.handleRequest tf clk responseTime p.req
      some { c with
        master := m
        toMaster := c.toMaster.eraseIdx k
        toWorker := c.toWorker ++
          (m.responses.getLast?.toList.map fun rep => ⟨p.worker, p.socket, rep⟩) }
  | c, .loseRequest k =>
    if k < c.toMaster.length then some { c with toMaster := c.toMaster.eraseIdx k } else none
  | c, .loseReply k =>
    if k < c.toWorker.length then some { c with toWorker := c.toWorker.eraseIdx k } else none
  | c, .deliver k =>
    match c.toWorker[k]? with
    | none => none
    | some r =>
      let c := { c with toWorker := c.toWorker.eraseIdx k }
      match c.socketIdx r.worker r.socket with
      | none => some c
      | some j => actAt timing c r.worker (.answer j { errorCode := .ok, body := r.rep })
  | c, .timeOut i k => actAt timing c i (.answer k { errorCode := .timeOut })
  | c, .compute i k result timeUsage totalTime =>
    actAt timing c i (.compute k result timeUsage totalTime)
  | c, .ui i now sent => actAt timing c i (.ui now sent)
  | c, .endMainLoop i => actAt timing c i .endMainLoop

/-- The cluster when the master has started and no worker has. -/
def init (tasks : List Int) (readState : Bool) (file : StateFile) : Cluster :=
  { master := Master.init tf tasks readState file }

/-! ## What a step does -/

/-- All that a step can do to the four parts of the cluster. -/
inductive Stepped (c : Cluster) : Action → Cluster → Prop where
  | launch (flags : Flags) (myIp : String) (now : Int) (sent : Nat → Bool) :
      Stepped c (.launch flags myIp now sent)
        { c with
          workers := c.workers ++ [⟨flags, (Worker.run flags myIp now sent).1⟩]
          toMaster := c.toMaster ++ post c.workers.length (Worker.run flags myIp now sent).2 }
  | serve {k : Nat} {clk : Clock} {responseTime : Int} {p : Packet} {rep : Response}
      (hk : c.toMaster[k]? = some p)
      (hm : MasterNode.Recorded c.master.node rep.taskIds p.req.reported
        (c.master.handleRequest tf clk responseTime p.req).node)
      (hget : p.req.getTask = none → rep.taskIds = [])
      (hne : p.req.getTask.isSome → c.master.node.taskPendingQueue ≠ [] → rep.taskIds ≠ []) :
      Stepped c (.serve k clk responseTime)
        { c with
          master := c.master.handleRequest tf clk responseTime p.req
          toMaster := c.toMaster.eraseIdx k
          toWorker := c.toWorker ++ [⟨p.worker, p.socket, rep⟩] }
  | loseRequest {k : Nat} {p : Packet} (hk : c.toMaster[k]? = some p) :
      Stepped c (.loseRequest k) { c with toMaster := c.toMaster.eraseIdx k }
  | loseReply {k : Nat} {r : Reply} (hk : c.toWorker[k]? = some r) :
      Stepped c (.loseReply k) { c with toWorker := c.toWorker.eraseIdx k }
  | drop {k : Nat} {r : Reply} (hk : c.toWorker[k]? = some r)
      (hj : c.socketIdx r.worker r.socket = none) :
      Stepped c (.deliver k) { c with toWorker := c.toWorker.eraseIdx k }
  | deliver {k j : Nat} {r : Reply} {site : Site} {w : Worker} {out : List Outgoing}
      (hk : c.toWorker[k]? = some r) (hj : c.socketIdx r.worker r.socket = some j)
      (hi : c.workers[r.worker]? = some site)
      (hm : Worker.Moved site.flags timing site.node
        (.answer j { errorCode := .ok, body := r.rep }) w out) :
      Stepped c (.deliver k)
        { c with
          workers := c.workers.set r.worker { site with node := w }
          toMaster := c.toMaster ++ post r.worker out
          toWorker := c.toWorker.eraseIdx k }
  | timeOut {i k : Nat} {site : Site} {w : Worker} {out : List Outgoing}
      (hi : c.workers[i]? = some site)
      (hm : Worker.Moved site.flags timing site.node (.answer k { errorCode := .timeOut }) w out) :
      Stepped c (.timeOut i k)
        { c with
          workers := c.workers.set i { site with node := w }
          toMaster := c.toMaster ++ post i out }
  | compute {i k : Nat} {result timeUsage : List Int} {totalTime : Int} {site : Site} {w : Worker}
      {out : List Outgoing} (hi : c.workers[i]? = some site)
      (hm : Worker.Moved site.flags timing site.node (.compute k result timeUsage totalTime) w
        out) :
      Stepped c (.compute i k result timeUsage totalTime)
        { c with
          workers := c.workers.set i { site with node := w }
          toMaster := c.toMaster ++ post i out }
  | ui {i : Nat} {now : Int} {sent : Bool} {site : Site} {w : Worker} {out : List Outgoing}
      (hi : c.workers[i]? = some site)
      (hm : Worker.Moved site.flags timing site.node (.ui now sent) w out) :
      Stepped c (.ui i now sent)
        { c with
          workers := c.workers.set i { site with node := w }
          toMaster := c.toMaster ++ post i out }
  | endMainLoop {i : Nat} {site : Site} {w : Worker} {out : List Outgoing}
      (hi : c.workers[i]? = some site)
      (hm : Worker.Moved site.flags timing site.node .endMainLoop w out) :
      Stepped c (.endMainLoop i)
        { c with
          workers := c.workers.set i { site with node := w }
          toMaster := c.toMaster ++ post i out }

theorem actAt_eq_some {c c' : Cluster} {i : Nat} {a : Worker.Action}
    (h : actAt timing c i a = some c') :
    ∃ site w out, c.workers[i]? = some site ∧
      Worker.Moved site.flags timing site.node a w out ∧
      c' = { c with
        workers := c.workers.set i { site with node := w }
        toMaster := c.toMaster ++ post i out } := by
  rw [actAt] at h
  rcases hi : c.workers[i]? with _ | site
  · simp [hi] at h
  · rcases ha : site.node.act site.flags timing a with _ | ⟨w, out⟩
    · simp [hi, ha] at h
    · simp only [hi, ha, Option.some_inj] at h
      exact ⟨site, w, out, rfl, Worker.moved_of_act _ _ ha, h.symm⟩

/-- What the master does with one request: the reply is the one it has appended to its list. -/
theorem master_handleRequest (m : Master) (clk : Clock) (responseTime : Int) (req : Request) :
    ∃ rep, (m.handleRequest tf clk responseTime req).responses = m.responses ++ [rep] ∧
      MasterNode.Recorded m.node rep.taskIds req.reported
        (m.handleRequest tf clk responseTime req).node ∧
      (req.getTask = none → rep.taskIds = []) ∧
      (req.getTask.isSome → m.node.taskPendingQueue ≠ [] → rep.taskIds ≠ []) :=
  ⟨_, rfl, MasterNode.handleRequest_recorded tf m.node clk req rfl,
    fun hget => MasterNode.handleRequest_taskIds tf m.node clk hget rfl,
    MasterNode.handleRequest_taskIds_ne_nil tf m.node clk _⟩

theorem stepped_of_step {c c' : Cluster} {a : Action} (h : step tf timing c a = some c') :
    Stepped tf timing c a c' := by
  rcases a with ⟨flags, myIp, now, sent⟩ | ⟨k, clk, responseTime⟩ | k | k | k | ⟨i, k⟩ |
    ⟨i, k, result, timeUsage, totalTime⟩ | ⟨i, now, sent⟩ | i
  · obtain rfl := Option.some_inj.1 h
    exact .launch flags myIp now sent
  · simp only [step] at h
    rcases hk : c.toMaster[k]? with _ | p
    · simp [hk] at h
    · obtain ⟨rep, hrep, hm, hget, hne⟩ := master_handleRequest tf c.master clk responseTime p.req
      simp only [hk, Option.some_inj, hrep, List.getLast?_append, List.getLast?_singleton,
        Option.some_or, Option.toList_some, List.map_cons, List.map_nil] at h
      subst h
      exact .serve hk hm hget hne
  · simp only [step, Option.ite_none_right_eq_some, Option.some_inj] at h
    obtain ⟨hk, rfl⟩ := h
    exact .loseRequest (List.getElem?_eq_getElem hk)
  · simp only [step, Option.ite_none_right_eq_some, Option.some_inj] at h
    obtain ⟨hk, rfl⟩ := h
    exact .loseReply (List.getElem?_eq_getElem hk)
  · simp only [step] at h
    rcases hk : c.toWorker[k]? with _ | r
    · simp [hk] at h
    · rcases hj : c.socketIdx r.worker r.socket with _ | j
      · have hj' : socketIdx { c with toWorker := c.toWorker.eraseIdx k } r.worker r.socket =
            none := hj
        simp only [hk, hj', Option.some_inj] at h
        subst h
        exact .drop hk hj
      · have hj' : socketIdx { c with toWorker := c.toWorker.eraseIdx k } r.worker r.socket =
            some j := hj
        simp only [hk, hj'] at h
        obtain ⟨site, w, out, hi, hm, rfl⟩ := actAt_eq_some timing h
        exact .deliver hk hj hi hm
  · obtain ⟨site, w, out, hi, hm, rfl⟩ := actAt_eq_some timing h
    exact .timeOut hi hm
  · obtain ⟨site, w, out, hi, hm, rfl⟩ := actAt_eq_some timing h
    exact .compute hi hm
  · obtain ⟨site, w, out, hi, hm, rfl⟩ := actAt_eq_some timing h
    exact .ui hi hm
  · obtain ⟨site, w, out, hi, hm, rfl⟩ := actAt_eq_some timing h
    exact .endMainLoop hi hm

end Cluster

end Dcfpe
