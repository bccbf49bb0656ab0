import Dcfpe.Shell.Arguments
import Dcfpe.Shell.RemoteServerNode
import Dcfpe.Shell.CommandExecutor
import Dcfpe.Lib.Machine
import Mathlib.Data.List.TakeWhile

/-!
# The output of a remote command

The executor cuts the output of a process into requests, and each request travels on a connection of
its own.  So they reach the local node in any order, and the local node prints them as they come;
when the exit comes it reports the end of the command, whatever is still under way.

`output_complete_iff` says when that is right: the requests that have come when the exit does spell
the output, and no chunk has a NUL in it, at which `printf` would cut it off.  The executor is never
to blame.  What its buffer has taken in is what its requests spell, in the order in which it sends
them (`Inv.chunks`).
-/

set_option autoImplicit false

namespace Dcfpe.Rs

/-- One command of a session: its executor, the requests under way, the local node. -/
structure CommandRun where
  executor : CommandExecutor
  node : LocalServerNode
  /-- The chunks of the standard output so far. -/
  chunks : List Text := []
  /-- Every request of the executor, as it was sent. -/
  sent : List Request := []
  inFlight : List Request := []
  /-- The requests that have reached the local node, as they did. -/
  arrived : List Request := []
  /-- What the local node has done. -/
  deeds : List Deed := []
  deriving DecidableEq, Repr

namespace CommandRun

/-- The command of a line is sent, and the remote node starts it.  `none` when the line is not one
that is run remotely. -/
def start (files : Files) (n : LocalServerNode) (line : Text) (now : Int) : Option CommandRun := do
  let (node, deeds) ← n.executeCommandRemotely files line
  deeds.findSome? fun
    | .send _ req _ _ => req.executeCommand.map fun command =>
      { node := node
        executor :=
          (({ sessionId := req.sessionId } : CommandExecutor).execute command req.requestId true
            now).1 }
    | _ => none

inductive Event where
  /-- The process has written a chunk. -/
  | output (isStdOut : Bool) (data : Text) (t₁ t₂ t₃ : Int)
  | flush (now : Int)
  | stop (exitCode : Int) (now : Int)
  /-- A request reaches the local node. -/
  | deliver (k : Nat)
  deriving DecidableEq, Repr

/-- The executor sends some requests. -/
def send (s : CommandRun) (executor : CommandExecutor) (reqs : List Request) : CommandRun :=
  { s with executor := executor, sent := s.sent ++ reqs, inFlight := s.inFlight ++ reqs }

/-- A request is settled by the local node. -/
def receive (s : CommandRun) (req : Request) : CommandRun :=
  match s.node.preHandle req with
  | some _ => s
  | none =>
    let (node, _, deeds) := s.node.handle req
    { s with node := node, deeds := s.deeds ++ deeds }

def step : Machine CommandRun Event
  | s, .output isStdOut data t₁ t₂ t₃ =>
    if s.executor.process ∧ s.executor.stopped = false then
      let (executor, reqs) := s.executor.onOutput isStdOut data t₁ t₂ t₃
      some ({ s with
          chunks := if isStdOut then s.chunks ++ [data] else s.chunks }.send executor reqs)
    else none
  | s, .flush now =>
    let (executor, reqs) := s.executor.flushOutputImpl now
    some (s.send executor reqs)
  | s, .stop exitCode now =>
    if s.executor.process ∧ s.executor.stopped = false then
      let (executor, reqs) := s.executor.onStop exitCode now
      some (s.send executor reqs)
    else none
  | s, .deliver k =>
    match s.inFlight[k]? with
    | some req =>
      some ({ s with inFlight := s.inFlight.eraseIdx k, arrived := s.arrived ++ [req] }.receive req)
    | none => none

/-! ## What is printed -/

/-- The text of a request that carries standard output. -/
def outText (req : Request) : Option Text :=
  req.executeOutput.bind fun detail =>
    if detail.isExit ∨ detail.isErrorOutput then none else some detail.output

def isExit (req : Request) : Bool := req.executeOutput.any ExecuteCommandOutputRequest.isExit

/-- What the local node has printed to its standard output. -/
def printed (s : CommandRun) : Text :=
  s.deeds.flatMap fun | .print false text => text | _ => []

/-- The end of the command has been reported. -/
def exitReported (s : CommandRun) : Prop := Deed.notify .succeed ∈ s.deeds

/-- Once the exit is reported, what is printed is what the process wrote. -/
def Complete (s : CommandRun) : Prop := s.exitReported → s.printed = s.chunks.flatten

/-- When the exit reaches the local node, the output requests that have reached it before spell what
all of them spell in the order in which they were sent, and no chunk has a NUL in it. -/
def InOrder (s : CommandRun) (e : Event) : Prop :=
  ∀ k req, e = .deliver k → s.inFlight[k]? = some req → isExit req →
    (s.arrived.filterMap outText).flatten = (s.sent.filterMap outText).flatten ∧
      ∀ chunk ∈ s.chunks, '\x00' ∉ chunk

/-! ## What the executor sends -/

/-- The standard output in the buffer. -/
def held (e : CommandExecutor) : Text := if e.isStdout then e.bufferedOutput else []

/-- A request of an executor. -/
structure From (e : CommandExecutor) (req : Request) : Prop where
  session : req.sessionId = e.sessionId
  noBeat : req.sessionHeartBeat = false
  output : ∃ detail, req.executeOutput = some detail ∧
    detail.originalRequestId = e.originalRequestId

/-- The executor takes in the text `out` and sends `reqs`: nothing is lost and nothing overtakes. -/
structure Sends (e e' : CommandExecutor) (reqs : List Request) (out : Text) : Prop where
  session : e'.sessionId = e.sessionId
  original : e'.originalRequestId = e.originalRequestId
  show' : e'.localShowOutput = e.localShowOutput
  text : held e ++ out = (reqs.filterMap outText).flatten ++ held e'
  nonempty : ∀ t ∈ reqs.filterMap outText, t ≠ []
  reqs : ∀ req ∈ reqs, From e req

theorem Sends.trans {e e' e'' : CommandExecutor} {reqs reqs' : List Request} {out out' : Text}
    (h : Sends e e' reqs out) (h' : Sends e' e'' reqs' out') :
    Sends e e'' (reqs ++ reqs') (out ++ out') := by
  refine ⟨h'.session.trans h.session, h'.original.trans h.original, h'.show'.trans h.show', ?_,
    fun t ht => ?_, fun req hreq => ?_⟩
  · rw [← List.append_assoc, h.text, List.append_assoc, h'.text, List.filterMap_append,
      List.flatten_append, List.append_assoc]
  · rw [List.filterMap_append, List.mem_append] at ht
    exact ht.elim (h.nonempty t) (h'.nonempty t)
  · rcases List.mem_append.1 hreq with hreq | hreq
    · exact h.reqs req hreq
    · obtain ⟨hs, hb, detail, hd, ho⟩ := h'.reqs req hreq
      exact ⟨hs.trans h.session, hb, detail, hd, ho.trans h.original⟩

theorem sends_sendBufferedOutput {e : CommandExecutor} (hshow : e.localShowOutput = true)
    (now : Int) :
    Sends e (e.sendBufferedOutput now).1 (e.sendBufferedOutput now).2 [] ∧
      (e.sendBufferedOutput now).1.bufferedOutput = [] ∧
      (e.sendBufferedOutput now).1.isStdout = e.isStdout ∧
      (e.sendBufferedOutput now).1.stopped = e.stopped ∧
      ∀ req ∈ (e.sendBufferedOutput now).2, isExit req = false := by
  rw [CommandExecutor.sendBufferedOutput]
  split
  · next hbuf =>
    exact ⟨⟨rfl, rfl, rfl, by simp, by simp, by simp⟩, hbuf, rfl, rfl, by simp⟩
  · next hbuf =>
    have hfrom : From e e.outputRequest := ⟨rfl, rfl, _, rfl, rfl⟩
    have hexit : isExit e.outputRequest = false := rfl
    cases hstd : e.isStdout with
    | true =>
      have hout : outText e.outputRequest = some e.bufferedOutput := by
        simp [outText, CommandExecutor.outputRequest, hstd]
      rw [if_pos (by simp [hshow])]
      refine ⟨⟨rfl, rfl, rfl, ?_, ?_, by simpa using hfrom⟩, rfl, rfl, rfl, by simpa using hexit⟩
      · simp [held, hstd, hout]
      · simpa [hout] using hbuf
    | false =>
      have hout : outText e.outputRequest = none := by
        simp [outText, CommandExecutor.outputRequest, hstd]
      refine ⟨⟨rfl, rfl, rfl, ?_, ?_, ?_⟩, rfl, rfl, rfl, ?_⟩
      · split <;> simp [held, hstd, hout]
      · split <;> simp [hout]
      · split <;> simp [hfrom]
      · split <;> simp [hexit]

/-- The chunk joins what is in the buffer, which is of the same stream. -/
theorem sends_append {e : CommandExecutor} (isStdOut : Bool) (data : Text)
    (hsame : e.bufferedOutput = [] ∨ e.isStdout = isStdOut) :
    Sends e { e with isStdout := isStdOut, bufferedOutput := e.bufferedOutput ++ data } []
      (if isStdOut then data else []) := by
  refine ⟨rfl, rfl, rfl, ?_, by simp, by simp⟩
  rcases hsame with hbuf | rfl
  · cases isStdOut <;> simp [held, hbuf]
  · cases h : e.isStdout <;> simp [held, h]

theorem sends_onOutput {e : CommandExecutor} (hshow : e.localShowOutput = true) (isStdOut : Bool)
    (data : Text) (t₁ t₂ t₃ : Int) :
    Sends e (e.onOutput isStdOut data t₁ t₂ t₃).1 (e.onOutput isStdOut data t₁ t₂ t₃).2
        (if isStdOut then data else []) ∧
      (e.onOutput isStdOut data t₁ t₂ t₃).1.stopped = e.stopped ∧
      ∀ req ∈ (e.onOutput isStdOut data t₁ t₂ t₃).2, isExit req = false := by
  obtain ⟨e₁, reqs, hchange, hsends, hstop, hexit, hsame⟩ : ∃ e₁ reqs,
      (if e.bufferedOutput ≠ [] ∧ e.isStdout ≠ isStdOut then e.sendBufferedOutput t₁ else (e, [])) =
        (e₁, reqs) ∧ Sends e e₁ reqs [] ∧ e₁.stopped = e.stopped ∧
      (∀ req ∈ reqs, isExit req = false) ∧
      (e₁.bufferedOutput = [] ∨ e₁.isStdout = isStdOut) := by
    obtain ⟨hs, hbuf, -, hstop, hexit⟩ := sends_sendBufferedOutput hshow t₁
    by_cases hc : e.bufferedOutput ≠ [] ∧ e.isStdout ≠ isStdOut
    · exact ⟨_, _, by rw [if_pos hc], hs, hstop, hexit, .inl hbuf⟩
    · refine ⟨e, [], by rw [if_neg hc], ⟨rfl, rfl, rfl, by simp, by simp, by simp⟩, rfl,
        by simp, ?_⟩
      by_contra hno
      rw [not_or] at hno
      exact hc hno
  have hadd := hsends.trans (sends_append isStdOut data hsame)
  rw [List.append_nil, List.nil_append] at hadd
  simp only [CommandExecutor.onOutput, hchange]
  split
  · obtain ⟨hs, -, -, hstop', hexit'⟩ := sends_sendBufferedOutput
      (e := { e₁ with isStdout := isStdOut, bufferedOutput := e₁.bufferedOutput ++ data })
      (hadd.show'.trans hshow) t₃
    refine ⟨by simpa using hadd.trans hs, hstop'.trans hstop, fun req hreq => ?_⟩
    exact (List.mem_append.1 hreq).elim (hexit req) (hexit' req)
  · exact ⟨hadd, hstop, hexit⟩

theorem sends_onStop {e : CommandExecutor} (hshow : e.localShowOutput = true) (exitCode now : Int) :
    Sends e (e.onStop exitCode now).1 (e.onStop exitCode now).2 [] ∧
      (e.onStop exitCode now).1.stopped = true ∧
      (e.onStop exitCode now).1.bufferedOutput = [] := by
  obtain ⟨hs, hbuf, hstd, -, -⟩ := sends_sendBufferedOutput hshow now
  refine ⟨?_, rfl, hbuf⟩
  have hlast : Sends (e.sendBufferedOutput now).1 (e.onStop exitCode now).1
      [{ sessionId := (e.sendBufferedOutput now).1.sessionId
         executeOutput := some
          { originalRequestId := (e.sendBufferedOutput now).1.originalRequestId
            isExit := true
            exitCode := exitCode } }] [] :=
    ⟨rfl, rfl, rfl, by simp [held, CommandExecutor.onStop, outText, hbuf], by simp [outText],
      List.forall_mem_singleton.2 ⟨rfl, rfl, _, rfl, rfl⟩⟩
  exact hs.trans hlast

/-! ## The run -/

structure Inv (s : CommandRun) : Prop where
  session : s.executor.sessionId = s.node.sessionId
  running : s.executor.originalRequestId = s.node.runningRequestId
  executorShows : s.executor.localShowOutput = true
  nodeShows : s.node.localShowOutput = true
  /-- What the process wrote is what has been sent, in this order, and what is in the buffer. -/
  chunks : s.chunks.flatten = (s.sent.filterMap outText).flatten ++ held s.executor
  nonempty : ∀ t ∈ s.sent.filterMap outText, t ≠ []
  reqs : ∀ req ∈ s.inFlight, From s.executor req
  conserved : (s.inFlight ++ s.arrived).Perm s.sent
  stopped : s.executor.stopped = true → s.executor.bufferedOutput = []
  exits : s.executor.stopped = false → ∀ req ∈ s.sent, isExit req = false
  printed : s.printed = ((s.arrived.filterMap outText).map LocalServerNode.cString).flatten
  reported : s.exitReported → ∃ req ∈ s.arrived, isExit req

theorem Inv.stopped_of_arrived {s : CommandRun} (h : s.Inv) {req : Request}
    (hmem : req ∈ s.inFlight ++ s.arrived) (hexit : isExit req) : s.executor.stopped = true := by
  by_contra hno
  rw [Bool.not_eq_true] at hno
  rw [h.exits hno req (h.conserved.mem_iff.1 hmem)] at hexit
  cases hexit

theorem Inv.send {s : CommandRun} (h : s.Inv) {e : CommandExecutor} {reqs : List Request}
    {out : Text} (hs : Sends s.executor e reqs out) {chunks : List Text}
    (hc : chunks.flatten = s.chunks.flatten ++ out)
    (hstop : e.stopped = true → e.bufferedOutput = [])
    (hexit : e.stopped = false →
      s.executor.stopped = false ∧ ∀ req ∈ reqs, isExit req = false) :
    Inv ({ s with chunks := chunks }.send e reqs) := by
  refine ⟨hs.session.trans h.session, hs.original.trans h.running, hs.show'.trans h.executorShows,
    h.nodeShows, ?_, fun t ht => ?_, fun req hreq => ?_, ?_, hstop, fun he req hreq => ?_,
    h.printed, h.reported⟩
  · change chunks.flatten = ((s.sent ++ reqs).filterMap outText).flatten ++ held e
    rw [hc, h.chunks, List.append_assoc, hs.text, List.filterMap_append, List.flatten_append,
      List.append_assoc]
  · rcases List.mem_append.1 (List.filterMap_append ▸ ht) with ht | ht
    · exact h.nonempty t ht
    · exact hs.nonempty t ht
  · have hfrom : From s.executor req := (List.mem_append.1 hreq).elim (h.reqs req) (hs.reqs req)
    obtain ⟨hsid, hb, detail, hd, ho⟩ := hfrom
    exact ⟨hsid.trans hs.session.symm, hb, detail, hd, ho.trans hs.original.symm⟩
  · change ((s.inFlight ++ reqs) ++ s.arrived).Perm (s.sent ++ reqs)
    rw [List.append_assoc]
    refine (List.perm_append_comm.append_left s.inFlight).trans ?_
    rw [← List.append_assoc]
    exact h.conserved.append_right reqs
  · obtain ⟨hno, hreqs⟩ := hexit he
    exact (List.mem_append.1 hreq).elim (h.exits hno req) (hreqs req)

/-- What the local node does with a request of the executor. -/
theorem receive_eq {s : CommandRun} {req : Request} (hreq : From s.executor req)
    (hsession : s.executor.sessionId = s.node.sessionId)
    (hrunning : s.executor.originalRequestId = s.node.runningRequestId)
    (hshow : s.node.localShowOutput = true) :
    ∃ ds, s.receive req = { s with deeds := s.deeds ++ ds } ∧
      (ds.flatMap fun | .print false text => text | _ => []) =
        ((outText req).map LocalServerNode.cString).getD [] ∧
      (Deed.notify .succeed ∈ ds ↔ isExit req) := by
  obtain ⟨hsid, hb, detail, hd, ho⟩ := hreq
  have hpre : s.node.preHandle req = none := by
    rw [LocalServerNode.preHandle, LocalServerNode.preHandleRequest,
      if_neg (by simp [hsid, hsession]), if_neg (by simp [hb])]
  have hrun : detail.originalRequestId = s.node.runningRequestId := ho.trans hrunning
  simp only [CommandRun.receive, hpre, LocalServerNode.handle, LocalServerNode.handleRequest, hsid,
    hsession, hd, LocalServerNode.handleExecuteOutput, hrun, ne_eq, not_true_eq_false, if_false]
  cases he : detail.isExit with
  | true => exact ⟨[.notify .succeed], rfl, by simp [outText, hd, he], by simp [isExit, hd, he]⟩
  | false =>
    cases herr : detail.isErrorOutput with
    | true =>
      refine ⟨if s.node.localShowError then [.print true (LocalServerNode.cString detail.output)]
        else [], rfl, ?_, ?_⟩
      · split <;> simp [outText, hd, herr]
      · split <;> simp [isExit, hd, he]
    | false =>
      refine ⟨[.print false (LocalServerNode.cString detail.output)], by simp [hshow], ?_, ?_⟩
      · simp [outText, hd, he, herr]
      · simp [isExit, hd, he]

theorem Inv.deliver {s : CommandRun} (h : s.Inv) {k : Nat} {req : Request}
    (hk : s.inFlight[k]? = some req) {t : CommandRun}
    (ht : { s with inFlight := s.inFlight.eraseIdx k, arrived := s.arrived ++ [req] }.receive req =
      t) : t.Inv ∧ t.chunks = s.chunks ∧ t.sent = s.sent ∧ t.executor = s.executor ∧
        t.printed = s.printed ++ ((outText req).map LocalServerNode.cString).getD [] ∧
        (t.exitReported ↔ s.exitReported ∨ isExit req) := by
  have hreq := h.reqs req (List.mem_of_getElem? hk)
  obtain ⟨ds, hds, hprint, hexit⟩ := receive_eq
    (s := { s with inFlight := s.inFlight.eraseIdx k, arrived := s.arrived ++ [req] }) hreq
    h.session h.running h.nodeShows
  obtain rfl := ht.symm.trans hds
  have hprinted : CommandRun.printed { s with
      inFlight := s.inFlight.eraseIdx k, arrived := s.arrived ++ [req], deeds := s.deeds ++ ds } =
      s.printed ++ ((outText req).map LocalServerNode.cString).getD [] := by
    rw [← hprint]
    exact List.flatMap_append
  have hreported : CommandRun.exitReported { s with
      inFlight := s.inFlight.eraseIdx k, arrived := s.arrived ++ [req], deeds := s.deeds ++ ds } ↔
      s.exitReported ∨ isExit req := by
    rw [← hexit]
    exact List.mem_append
  refine ⟨⟨h.session, h.running, h.executorShows, h.nodeShows, h.chunks, h.nonempty,
    fun r hr => h.reqs r (List.mem_of_mem_eraseIdx hr), ?_, h.stopped, h.exits, ?_, fun hr => ?_⟩,
    rfl, rfl, rfl, hprinted, hreported⟩
  · obtain ⟨hlt, hget⟩ := List.getElem?_eq_some_iff.1 hk
    have hcons := List.getElem_cons_eraseIdx_perm hlt
    rw [hget] at hcons
    refine List.Perm.trans ?_ ((hcons.append_right s.arrived).trans h.conserved)
    change (s.inFlight.eraseIdx k ++ (s.arrived ++ [req])).Perm _
    rw [← List.append_assoc]
    exact List.perm_append_comm
  · rw [hprinted, h.printed]
    cases hout : outText req <;> simp [hout]
  · rcases hreported.1 hr with hr | hr
    · obtain ⟨r, hr, he⟩ := h.reported hr
      exact ⟨r, List.mem_append_left _ hr, he⟩
    · exact ⟨req, List.mem_append_right _ (List.mem_singleton.2 rfl), hr⟩

theorem inv_step {s t : CommandRun} {a : Event} (h : s.Inv) (hs : step s a = some t) : t.Inv := by
  cases a with
  | output isStdOut data t₁ t₂ t₃ =>
    simp only [step] at hs
    split at hs
    · next hrun =>
      obtain ⟨hsends, hstop, hexit⟩ := sends_onOutput h.executorShows isStdOut data t₁ t₂ t₃
      rw [← Option.some_inj.1 hs]
      refine h.send hsends ?_ (fun he => ?_) fun he => ⟨hrun.2, hexit⟩
      · cases isStdOut <;> simp
      · rw [hstop, hrun.2] at he
        cases he
    · cases hs
  | flush now =>
    obtain ⟨hsends, hbuf, -, hstop, hexit⟩ := sends_sendBufferedOutput h.executorShows now
    rw [← Option.some_inj.1 hs]
    exact h.send hsends (by simp) (fun _ => hbuf) fun he => ⟨hstop ▸ he, hexit⟩
  | stop exitCode now =>
    simp only [step] at hs
    split at hs
    · obtain ⟨hsends, hstop, hbuf⟩ := sends_onStop h.executorShows exitCode now
      rw [← Option.some_inj.1 hs]
      refine h.send hsends (by simp) (fun _ => hbuf) fun he => ?_
      rw [hstop] at he
      cases he
    · cases hs
  | deliver k =>
    simp only [step] at hs
    split at hs
    · next req hk => exact (h.deliver hk (Option.some_inj.1 hs)).1
    · cases hs

/-! ## Completeness -/

theorem cString_eq {t : Text} (ht : '\x00' ∉ t) : LocalServerNode.cString t = t := by
  refine List.takeWhile_eq_self_iff.2 fun c hc => ?_
  have hne : c ≠ '\x00' := fun h => ht (h ▸ hc)
  simpa using hne

theorem nul_not_mem_cString (t : Text) : '\x00' ∉ LocalServerNode.cString t := by
  intro h
  have := List.mem_takeWhile_imp h
  simp at this

/-- When everything is sent, what is printed is complete exactly if what has arrived spells it and
`printf` cuts nothing off. -/
theorem Inv.complete_iff {s : CommandRun} (h : s.Inv) (hstop : s.executor.stopped = true) :
    s.printed = s.chunks.flatten ↔
      (s.arrived.filterMap outText).flatten = (s.sent.filterMap outText).flatten ∧
        ∀ chunk ∈ s.chunks, '\x00' ∉ chunk := by
  have hsent : s.chunks.flatten = (s.sent.filterMap outText).flatten := by
    rw [h.chunks, held, h.stopped hstop]
    simp
  have hsub : ∀ t ∈ s.arrived.filterMap outText, t ∈ s.sent.filterMap outText := by
    intro t ht
    obtain ⟨req, hreq, hout⟩ := List.mem_filterMap.1 ht
    exact List.mem_filterMap.2
      ⟨req, h.conserved.mem_iff.1 (List.mem_append_right _ hreq), hout⟩
  have hid : (∀ chunk ∈ s.chunks, '\x00' ∉ chunk) →
      s.printed = (s.arrived.filterMap outText).flatten := by
    intro hnul
    rw [h.printed]
    congr 1
    refine (List.map_congr_left fun t ht => ?_).trans (List.map_id' _)
    refine cString_eq fun hc => ?_
    have hmem : '\x00' ∈ s.chunks.flatten := by
      rw [hsent]
      exact List.mem_flatten.2 ⟨t, hsub t ht, hc⟩
    obtain ⟨chunk, hchunk, hc⟩ := List.mem_flatten.1 hmem
    exact hnul chunk hchunk hc
  constructor
  · intro hp
    have hnul : ∀ chunk ∈ s.chunks, '\x00' ∉ chunk := by
      intro chunk hchunk hc
      have hmem : '\x00' ∈ s.printed := by
        rw [hp]
        exact List.mem_flatten.2 ⟨chunk, hchunk, hc⟩
      rw [h.printed] at hmem
      obtain ⟨t, ht, hct⟩ := List.mem_flatten.1 hmem
      obtain ⟨u, -, rfl⟩ := List.mem_map.1 ht
      exact nul_not_mem_cString u hct
    exact ⟨(hid hnul).symm.trans (hp.trans hsent), hnul⟩
  · rintro ⟨harr, hnul⟩
    rw [hid hnul, harr, hsent]

/-- If what has arrived spells all that was sent, no standard output is under way. -/
theorem Inv.outText_inFlight {s : CommandRun} (h : s.Inv)
    (harr : (s.arrived.filterMap outText).flatten = (s.sent.filterMap outText).flatten)
    {req : Request}
    (hreq : req ∈ s.inFlight) : outText req = none := by
  have hperm := (h.conserved.filterMap outText).flatten.length_eq
  rw [List.filterMap_append, List.flatten_append, List.length_append, harr] at hperm
  cases hout : outText req with
  | none => rfl
  | some t =>
    have ht : t ∈ s.inFlight.filterMap outText := List.mem_filterMap.2 ⟨req, hreq, hout⟩
    have hsent : t ∈ s.sent.filterMap outText :=
      List.mem_filterMap.2 ⟨req, h.conserved.mem_iff.1 (List.mem_append_left _ hreq), hout⟩
    have hzero : (s.inFlight.filterMap outText).flatten = [] :=
      List.eq_nil_of_length_eq_zero (by omega)
    exact absurd (List.flatten_eq_nil_iff.1 hzero t ht) (h.nonempty t hsent)

theorem Inv.stopped_of_reported {s : CommandRun} (h : s.Inv) (hr : s.exitReported) :
    s.executor.stopped = true := by
  obtain ⟨req, hreq, hexit⟩ := h.reported hr
  exact h.stopped_of_arrived (List.mem_append_right _ hreq) hexit

theorem outText_of_isExit {req : Request} (h : isExit req) : outText req = none := by
  rw [isExit, Option.any_eq_true] at h
  obtain ⟨detail, hd, he⟩ := h
  simp [outText, hd, he]

/-- A delivery keeps the output complete exactly if it is not that of the exit out of order. -/
theorem complete_deliver {s t : CommandRun} {k : Nat} (h : s.Inv) (hc : s.Complete)
    (hs : step s (.deliver k) = some t) : t.Complete ↔ s.InOrder (.deliver k) := by
  simp only [step] at hs
  split at hs
  · next req hk =>
    have hmem : req ∈ s.inFlight := List.mem_of_getElem? hk
    obtain ⟨-, hchunks, -, -, hprinted, hreported⟩ := h.deliver hk (Option.some_inj.1 hs)
    cases hexit : isExit req with
    | true =>
      have hstop := h.stopped_of_arrived (List.mem_append_left _ hmem) hexit
      rw [outText_of_isExit hexit, Option.map_none, Option.getD_none, List.append_nil] at hprinted
      have hiff := h.complete_iff hstop
      rw [Complete, hprinted, hchunks, hiff]
      refine ⟨fun hcom k' req' hk' hreq' _ => hcom (hreported.2 (.inr hexit)),
        fun hin _ => hin k req rfl hk hexit⟩
    | false =>
      refine ⟨fun _ k' req' hk' hreq' hexit' => ?_, fun _ hr => ?_⟩
      · cases hk'
        rw [hk, Option.some_inj] at hreq'
        rw [← hreq', hexit] at hexit'
        cases hexit'
      · -- the exit came before, and then nothing of the output was left
        have hr' := (hreported.1 hr).resolve_right (by simp [hexit])
        have harr := ((h.complete_iff (h.stopped_of_reported hr')).1 (hc hr')).1
        rw [hprinted, h.outText_inFlight harr hmem, hchunks]
        simpa using hc hr'
  · cases hs

/-- **One step.**  It keeps the output complete exactly if it does not deliver the exit out of
order. -/
theorem complete_step {s t : CommandRun} {a : Event} (h : s.Inv) (hc : s.Complete)
    (hs : step s a = some t) : t.Complete ↔ s.InOrder a := by
  cases a with
  | output isStdOut data t₁ t₂ t₃ =>
    simp only [step] at hs
    split at hs
    · next hrun =>
      refine iff_of_true (fun hr => ?_) (by rintro k req ⟨⟩)
      have hstop := h.stopped_of_reported (by rw [← Option.some_inj.1 hs] at hr; exact hr)
      rw [hrun.2] at hstop
      cases hstop
    · cases hs
  | flush now =>
    refine iff_of_true (fun hr => ?_) (by rintro k req ⟨⟩)
    simp only [step, CommandExecutor.flushOutputImpl, CommandExecutor.sendBufferedOutput] at hs
    have hr' : s.exitReported := by rw [← Option.some_inj.1 hs] at hr; exact hr
    rw [if_pos (h.stopped (h.stopped_of_reported hr')), Option.some_inj] at hs
    rw [← hs]
    exact hc hr'
  | stop exitCode now =>
    simp only [step] at hs
    split at hs
    · next hrun =>
      refine iff_of_true (fun hr => ?_) (by rintro k req ⟨⟩)
      have hstop := h.stopped_of_reported (by rw [← Option.some_inj.1 hs] at hr; exact hr)
      rw [hrun.2] at hstop
      cases hstop
    · cases hs
  | deliver k => exact complete_deliver h hc hs

/-- A line that is run remotely finds the local node and the executor in the same session, with the
same options, and with this command as the running one. -/
theorem inv_start {files : Files} {n : LocalServerNode} {line : Text} {now : Int} {s : CommandRun}
    (hshow : n.localShowOutput = true) (hs : start files n line now = some s) :
    s.Inv ∧ s.Complete := by
  rw [start, Option.bind_eq_bind, Option.bind_eq_some_iff] at hs
  obtain ⟨⟨node, deeds⟩, hexec, hs⟩ := hs
  obtain ⟨deed, hdeed, hs⟩ := List.exists_of_findSome?_eq_some hs
  cases deed with
  | send address req callback timeout =>
    obtain ⟨command, hcommand, rfl⟩ := Option.map_eq_some_iff.1 hs
    obtain ⟨rfl, hsession, hid, cmd, args, -, rfl⟩ :=
      LocalServerNode.executeCommand_sent hexec hdeed hcommand
    have hshow' : (n.executeCommandRequest cmd args).localShowOutput = true := hshow
    have hexecutor : ∀ e : CommandExecutor, ∀ id, ∃ process lastSendTime,
        (e.execute (n.executeCommandRequest cmd args) id true now).1 =
          { e with
            originalRequestId := id
            process := process
            lastSendTime := lastSendTime
            waitForCommand := n.waitForCommand
            remoteShowOutput := n.remoteShowOutput
            remoteShowError := n.remoteShowError
            localShowOutput := n.localShowOutput
            localShowError := n.localShowError } := by
      intro e id
      rw [CommandExecutor.execute]
      split
      · exact ⟨true, now, rfl⟩
      · exact ⟨e.process, e.lastSendTime, rfl⟩
    obtain ⟨process, lastSendTime, he⟩ := hexecutor { sessionId := req.sessionId } req.requestId
    rw [he]
    refine ⟨⟨hsession, hid, hshow, hshow, rfl, by simp, by simp, .rfl, fun _ => rfl, by simp, rfl,
      by simp [exitReported]⟩, by simp [Complete, exitReported]⟩
  | _ => cases hs

/-- **When the output is complete.**  In every state of the run of a command whose output is shown
locally, if its exit has been reported, the local node has printed the chunks of its standard output
in the order in which the process wrote them — in exactly the runs in which, when the exit reaches
the local node, the output requests that have reached it spell, in the order in which they did,
what they spell in the order in which they were sent, and no chunk has a NUL in it. -/
theorem output_complete_iff {files : Files} {n : LocalServerNode} {line : Text} {now : Int}
    {s : CommandRun} (hshow : n.localShowOutput = true) (hs : start files n line now = some s)
    (es : List Event) :
    (∀ pre t, pre <+: es → step.run s pre = some t → t.Complete) ↔ step.Meets InOrder s es := by
  obtain ⟨hinv, hcom⟩ := inv_start hshow hs
  refine Machine.always_iff (fun s a t hinv _ _ hs => ?_) (fun s a hinv hcom => ?_) hinv hcom
  · exact inv_step hinv hs
  · refine ⟨fun hC => ?_, fun hin t hs => (complete_step hinv hcom hs).2 hin⟩
    cases hs : step s a with
    | some t => exact (complete_step hinv hcom hs).1 (hC t hs)
    | none =>
      rintro k req rfl hk
      simp [step, hk] at hs

/-- The run of `dir` on a connected node. -/
def dirRun : Option CommandRun := start {} LocalServerNode.connectedNode "dir".toList 0

/-- Two chunks that the clock separates, and the exit, each delivered in its turn. -/
theorem output_complete_dir :
    ∃ s, dirRun = some s ∧ ∀ pre t,
      pre <+: [.output true "a\n".toList 0 60000 0, .output true "b\n".toList 0 0 0, .stop 0 0,
        .deliver 0, .deliver 0, .deliver 0] →
      step.run s pre = some t → t.Complete := by
  have hstart : start {} LocalServerNode.connectedNode "dir".toList 0 = some _ := rfl
  refine ⟨_, hstart, (output_complete_iff rfl hstart _).2 ?_⟩
  refine ⟨by rintro k req ⟨⟩, fun t ht => ?_⟩
  cases ht
  refine ⟨by rintro k req ⟨⟩, fun t ht => ?_⟩
  cases ht
  refine ⟨by rintro k req ⟨⟩, fun t ht => ?_⟩
  cases ht
  refine ⟨?_, fun t ht => ?_⟩
  · rintro k req ⟨⟩ hk hexit
    cases hk
    exact absurd hexit (by decide)
  cases ht
  refine ⟨?_, fun t ht => ?_⟩
  · rintro k req ⟨⟩ hk hexit
    cases hk
    exact absurd hexit (by decide)
  cases ht
  refine ⟨?_, fun _ _ => trivial⟩
  rintro k req ⟨⟩ - -
  decide

/-- The exit overtakes the only chunk: the end of the command is reported with nothing printed. -/
theorem exit_overtakes_output :
    ¬ ∀ (files : Files) (n : LocalServerNode) (line : Text) (now : Int) (s : CommandRun),
      n.localShowOutput = true → start files n line now = some s →
      ∀ (es : List Event) (pre : List Event) (t : CommandRun), pre <+: es →
        step.run s pre = some t → t.Complete := by
  intro h
  have hc := h {} LocalServerNode.connectedNode "dir".toList 0 _ rfl rfl
    [.output true "a\n".toList 0 60000 0, .stop 0 0, .deliver 1] _ _ List.prefix_rfl rfl
  have hr : Deed.notify .succeed ∈ [Deed.notify .succeed] := List.mem_singleton.2 rfl
  exact absurd (hc hr) (by decide)

end CommandRun

end Dcfpe.Rs
