import Mathlib.Logic.Basic
import Dcfpe.Shell.CommandExecutor

/-!
# Both streams of a remote command

The executor has one buffer and one flag for both streams of its process.  Four things empty it: a
chunk of the other stream, more than 1024 bytes, some time that has passed, and the end of the
process.  Whatever their order, what it sends is each byte of the streams that are shown, once, in
the order of the process and under its own stream (`Passes`), and the exit comes after all of it.
-/

set_option autoImplicit false

namespace Dcfpe.Rs.CommandExecutor

/-- A byte and the stream it is of. -/
abbrev Mark := Bool × Char

/-! ## What is called and what is sent -/

/-- A call the executor gets while its process runs. -/
inductive Call where
  /-- The process has written a chunk. -/
  | output (isStdOut : Bool) (data : Text) (t₁ t₂ t₃ : Int)
  /-- A tick of the timer. -/
  | flush (now : Int)
  deriving DecidableEq, Repr

def serve (e : CommandExecutor) : Call → CommandExecutor × List Request
  | .output isStdOut data t₁ t₂ t₃ => e.onOutput isStdOut data t₁ t₂ t₃
  | .flush now => e.flushOutputImpl now

/-- The calls one after the other, and everything that is sent. -/
def serveAll (e : CommandExecutor) : List Call → CommandExecutor × List Request
  | [] => (e, [])
  | call :: calls =>
    let (e, reqs) := e.serve call
    let (e, reqs') := e.serveAll calls
    (e, reqs ++ reqs')

/-- The life of a process with this host: calls, the end, and ticks that come late. -/
def runProcess (e : CommandExecutor) (calls : List Call) (exitCode now : Int) (late : List Int) :
    CommandExecutor × List Request :=
  let (e, reqs) := e.serveAll calls
  let (e, last) := e.onStop exitCode now
  let (e, reqs') := e.serveAll (late.map .flush)
  (e, reqs ++ last ++ reqs')

/-- Whether a stream is shown on the local machine. -/
def shows (e : CommandExecutor) (isStdOut : Bool) : Bool :=
  if isStdOut then e.localShowOutput else e.localShowError

def marks (isStdOut : Bool) (data : Text) : List Mark := data.map fun c => (isStdOut, c)

/-- What the process produces in a call, of the streams that are shown. -/
def produced (e : CommandExecutor) : Call → List Mark
  | .output isStdOut data _ _ _ => if e.shows isStdOut then marks isStdOut data else []
  | .flush _ => []

/-- What a request carries. -/
def carried (req : Request) : List Mark :=
  match req.executeOutput with
  | some detail => marks (!detail.isErrorOutput) detail.output
  | none => []

/-- The request that tells the end of the process. -/
def exitRequest (e : CommandExecutor) (exitCode : Int) : Request :=
  { sessionId := e.sessionId
    executeOutput := some
      { originalRequestId := e.originalRequestId, isExit := true, exitCode := exitCode } }

/-- A request with some output of the command. -/
structure IsOutput (e : CommandExecutor) (req : Request) : Prop where
  session : req.sessionId = e.sessionId
  detail : ∃ detail, req.executeOutput = some detail ∧ detail.isExit = false ∧
    detail.originalRequestId = e.originalRequestId ∧ detail.output ≠ []

/-! ## Nothing is lost, doubled or taken for the other stream -/

/-- What the buffer will send. -/
def held (e : CommandExecutor) : List Mark :=
  if e.shows e.isStdout then marks e.isStdout e.bufferedOutput else []

/-- The executor takes in `out` and sends `reqs`. -/
structure Passes (e e' : CommandExecutor) (reqs : List Request) (out : List Mark) : Prop where
  session : e'.sessionId = e.sessionId
  original : e'.originalRequestId = e.originalRequestId
  shows : ∀ isStdOut, e'.shows isStdOut = e.shows isStdOut
  marks : e.held ++ out = reqs.flatMap carried ++ e'.held
  reqs : ∀ req ∈ reqs, e.IsOutput req

namespace Passes

variable {e e' e'' : CommandExecutor} {reqs reqs' : List Request} {out out' : List Mark}

theorem refl (e : CommandExecutor) : Passes e e [] [] :=
  ⟨rfl, rfl, fun _ => rfl, by simp, by simp⟩

theorem trans (h : Passes e e' reqs out) (h' : Passes e' e'' reqs' out') :
    Passes e e'' (reqs ++ reqs') (out ++ out') := by
  refine ⟨h'.session.trans h.session, h'.original.trans h.original,
    fun b => (h'.shows b).trans (h.shows b), ?_, fun req hreq => ?_⟩
  · rw [← List.append_assoc, h.marks, List.append_assoc, h'.marks, List.flatMap_append,
      List.append_assoc]
  · rcases List.mem_append.1 hreq with hreq | hreq
    · exact h.reqs req hreq
    · obtain ⟨hsession, detail, hdetail, hexit, horiginal, hne⟩ := h'.reqs req hreq
      exact ⟨hsession.trans h.session, detail, hdetail, hexit, horiginal.trans h.original, hne⟩

end Passes

theorem passes_sendBufferedOutput (e : CommandExecutor) (now : Int) :
    Passes e (e.sendBufferedOutput now).1 (e.sendBufferedOutput now).2 [] ∧
      (e.sendBufferedOutput now).1.bufferedOutput = [] := by
  rw [sendBufferedOutput]
  split
  · next hbuf => exact ⟨.refl e, hbuf⟩
  · next hbuf =>
    have hshows : ((e.localShowOutput && e.isStdout) || (e.localShowError && !e.isStdout)) =
        e.shows e.isStdout := by
      rw [shows]
      cases e.isStdout <;> simp
    have hcarried : carried e.outputRequest = marks e.isStdout e.bufferedOutput := by
      simp [carried, outputRequest]
    rw [hshows]
    refine ⟨⟨rfl, rfl, fun _ => rfl, ?_, fun req hreq => ?_⟩, rfl⟩
    · have hempty : held { e with bufferedOutput := [], lastSendTime := now } = [] := by
        simp [held, marks]
      rw [hempty, held]
      cases e.shows e.isStdout with
      | true => simp [hcarried]
      | false => simp
    · split at hreq
      · rw [List.mem_singleton] at hreq
        exact hreq ▸ ⟨rfl, _, rfl, rfl, rfl, hbuf⟩
      · cases hreq

/-- The chunk joins what is in the buffer, which is of the same stream. -/
theorem passes_append {e : CommandExecutor} (isStdOut : Bool) (data : Text)
    (hsame : e.bufferedOutput = [] ∨ e.isStdout = isStdOut) :
    Passes e { e with isStdout := isStdOut, bufferedOutput := e.bufferedOutput ++ data } []
      (if e.shows isStdOut then marks isStdOut data else []) := by
  refine ⟨rfl, rfl, fun _ => rfl, ?_, by simp⟩
  have hshows : ({ e with isStdout := isStdOut, bufferedOutput := e.bufferedOutput ++ data } :
      CommandExecutor).shows isStdOut = e.shows isStdOut := rfl
  simp only [held, hshows]
  rcases hsame with hbuf | rfl
  · simp [hbuf, marks]
  · cases h : e.shows e.isStdout <;> simp [marks]

theorem passes_onOutput (e : CommandExecutor) (isStdOut : Bool) (data : Text) (t₁ t₂ t₃ : Int) :
    Passes e (e.onOutput isStdOut data t₁ t₂ t₃).1 (e.onOutput isStdOut data t₁ t₂ t₃).2
      (if e.shows isStdOut then marks isStdOut data else []) := by
  obtain ⟨e₁, reqs, hchange, hpasses, hsame⟩ : ∃ e₁ reqs,
      (if e.bufferedOutput ≠ [] ∧ e.isStdout ≠ isStdOut then e.sendBufferedOutput t₁ else (e, [])) =
        (e₁, reqs) ∧ Passes e e₁ reqs [] ∧
      (e₁.bufferedOutput = [] ∨ e₁.isStdout = isStdOut) := by
    obtain ⟨hpasses, hbuf⟩ := passes_sendBufferedOutput e t₁
    by_cases hc : e.bufferedOutput ≠ [] ∧ e.isStdout ≠ isStdOut
    · exact ⟨_, _, by rw [if_pos hc], hpasses, Or.inl hbuf⟩
    · refine ⟨e, [], by rw [if_neg hc], .refl e, ?_⟩
      rw [not_and_or, not_not, not_not] at hc
      exact hc
  have hadd := hpasses.trans (passes_append isStdOut data hsame)
  rw [List.append_nil, List.nil_append, hpasses.shows] at hadd
  simp only [onOutput, hchange]
  split
  · have hsend := (passes_sendBufferedOutput
      { e₁ with isStdout := isStdOut, bufferedOutput := e₁.bufferedOutput ++ data } t₃).1
    simpa using hadd.trans hsend
  · exact hadd

theorem passes_serve (e : CommandExecutor) (call : Call) :
    Passes e (e.serve call).1 (e.serve call).2 (e.produced call) := by
  cases call with
  | output isStdOut data t₁ t₂ t₃ => exact passes_onOutput e isStdOut data t₁ t₂ t₃
  | flush now => exact (passes_sendBufferedOutput e now).1

theorem passes_serveAll (e : CommandExecutor) (calls : List Call) :
    Passes e (e.serveAll calls).1 (e.serveAll calls).2 (calls.flatMap e.produced) := by
  induction calls generalizing e with
  | nil => exact .refl e
  | cons call calls ih =>
    have hserve := passes_serve e call
    have hproduced : (e.serve call).1.produced = e.produced := by
      funext call'
      cases call' with
      | output isStdOut data t₁ t₂ t₃ => rw [produced, produced, hserve.shows]
      | flush now => rfl
    have hrest := ih (e.serve call).1
    rw [hproduced] at hrest
    exact hserve.trans hrest

/-- With an empty buffer the ticks do nothing. -/
theorem serveAll_flush {e : CommandExecutor} (hbuf : e.bufferedOutput = []) (late : List Int) :
    e.serveAll (late.map .flush) = (e, []) := by
  induction late with
  | nil => rfl
  | cons now late ih =>
    have hserve : e.serve (.flush now) = (e, []) := if_pos hbuf
    simp only [List.map_cons, serveAll, hserve, ih, List.append_nil]

theorem onStop_eq (e : CommandExecutor) (exitCode now : Int) :
    e.onStop exitCode now =
      ({ (e.sendBufferedOutput now).1 with stopped := true },
        (e.sendBufferedOutput now).2 ++ [(e.sendBufferedOutput now).1.exitRequest exitCode]) := rfl

/-- **The output of a process.**  A process that was started to be waited for writes what it likes
to its two streams, in any chunks and with any ticks between them; it ends, and more ticks may
follow. Then what is sent is some output, which carries byte by byte what the process wrote to the
streams that are shown, in its order, each byte under its stream, and after it the exit, once. -/
theorem runProcess_spec (sessionId : Int) (command : ExecuteCommandRequest)
    (hwait : command.waitForCommand = true) (originalRequestId now₀ : Int) (calls : List Call)
    (exitCode now : Int) (late : List Int) :
    let e := (({ sessionId := sessionId } : CommandExecutor).execute command originalRequestId true
      now₀).1
    e.process = true ∧ ∃ outputs, (∀ req ∈ outputs, e.IsOutput req) ∧
      (e.runProcess calls exitCode now late).2 = outputs ++ [e.exitRequest exitCode] ∧
      outputs.flatMap carried = calls.flatMap e.produced := by
  intro e
  have he : e.process = true ∧ e.bufferedOutput = [] := by
    simp only [e, execute, hwait]
    exact ⟨rfl, rfl⟩
  have hheld : e.held = [] := by simp [held, he.2, marks]
  have hall := passes_serveAll e calls
  obtain ⟨hlast, hbuf⟩ := passes_sendBufferedOutput (e.serveAll calls).1 now
  have htotal := hall.trans hlast
  have hheld' : held ((e.serveAll calls).1.sendBufferedOutput now).1 = [] := by
    simp [held, hbuf, marks]
  refine ⟨he.1, (e.serveAll calls).2 ++ ((e.serveAll calls).1.sendBufferedOutput now).2,
    htotal.reqs, ?_, ?_⟩
  · have hexit : ((e.serveAll calls).1.sendBufferedOutput now).1.exitRequest exitCode =
        e.exitRequest exitCode := by
      rw [exitRequest, exitRequest, htotal.session, htotal.original]
    have hlate := serveAll_flush (e := ((e.serveAll calls).1.onStop exitCode now).1) hbuf late
    simp only [runProcess, hlate]
    rw [onStop_eq, hexit, List.append_nil, List.append_assoc]
  · have hmarks := htotal.marks
    rw [hheld, hheld', List.nil_append, List.append_nil, List.append_nil] at hmarks
    exact hmarks.symm

/-- The executor of a command of which the second stream is shown on both sides, and the first one
only on its own. -/
def errorOnly : CommandExecutor :=
  (({ sessionId := 1 } : CommandExecutor).execute
    { remoteShowOutput := true, localShowOutput := false } 7 true 0).1

theorem runProcess_spec_errorOnly :
    ∃ outputs : List Request,
      (errorOnly.runProcess [.output true ['o'] 0 0 0, .output false ['e'] 0 0 0, .flush 0] 3 0
        [0]).2 = outputs ++ [errorOnly.exitRequest 3] ∧
      outputs.flatMap carried = [(false, 'e')] := by
  obtain ⟨-, outputs, -, hsent, hcarried⟩ := runProcess_spec 1
    { remoteShowOutput := true, localShowOutput := false } rfl 7 0
    [.output true ['o'] 0 0 0, .output false ['e'] 0 0 0, .flush 0] 3 0 [0]
  exact ⟨outputs, hsent, hcarried⟩

end Dcfpe.Rs.CommandExecutor
