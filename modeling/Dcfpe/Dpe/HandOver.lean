import Dcfpe.Dpe.HttpServer
import Dcfpe.Lib.Machine

/-!
# The hand-over of a request

`HandleRequestOnThread` posts a request to the UI thread with the address of a local response, and
waits for `task_event_`.  It returns when the event comes, when ten seconds are over, or with the
quit flag; the task that it has posted stays where it is and keeps the address.

`step` has the steps of both threads.  The handler runs on the UI thread and makes any number of
calls of `SetHeader` and `SetBody`, between which the other thread goes on.  `handOver_safe_iff`
says for which runs no response is written to whose call has returned.  Every response that is sent
is the right one: after a wait that has gone wrong `Run` sends no more.
-/

set_option autoImplicit false

namespace Dcfpe.Http

/-- What a handler does to a response. -/
inductive Write where
  | setHeader (key value : Text)
  | setBody (body : Text)
  deriving DecidableEq, Repr

def HttpResponse.write (response : HttpResponse) : Write → HttpResponse
  | .setHeader key value => { response with headers := response.headers.insert key value }
  | .setBody body => { response with body := body }

/-- A response after the handler has made its calls. -/
def HttpResponse.writeAll (response : HttpResponse) (writes : List Write) : HttpResponse :=
  writes.foldl HttpResponse.write response

/-- A call of `HandleRequestOnThread` that has posted its task. -/
structure Call where
  reqData : Text
  response : HttpResponse := {}
  /-- What the handler has been called with, and what it does to the response; a server without a
  handler does nothing to it. -/
  answer : Option (HttpRequest × List Write) := none
  returned : Bool := false

namespace HandOver

/-- Where the thread of `Run` is; a call has the number of its request. -/
inductive Thread where
  | accepting
  | receiving
  /-- In the wait. -/
  | waiting (call : Nat)
  /-- After the wait, and whether the event has ended it. -/
  | waited (call : Nat) (signalled : Bool)
  | ended
  deriving DecidableEq, Repr

/-- Where the UI thread is. -/
inductive Ui where
  | idle
  /-- In `HandleRequest`, with what the handler still does to the response of the call. -/
  | handling (call : Nat) (writes : List Write)
  /-- In `Stop`, before and after its `SetEvent`. -/
  | stopping (set : Bool)
  deriving DecidableEq, Repr

/-- The call that the UI thread is working for. -/
def Ui.call : Ui → Option Nat
  | .handling call _ => some call
  | _ => none

end HandOver

open HandOver

/-- A server that has been started, and the UI thread. -/
structure HandOver where
  quitFlag : Bool := false
  taskEvent : Bool := false
  /-- `thread_handle_` is not `NULL`. -/
  threadHandle : Bool := true
  /-- `handler` is not `NULL`. -/
  handler : Bool := false
  /-- The weak pointers to the server are not null. -/
  alive : Bool := true
  thread : Thread := .accepting
  ui : Ui := .idle
  /-- What is bound to the tasks that are queued: the call whose response they have the address of,
  and the request. -/
  uiTasks : List (Nat × HttpRequest) := []
  calls : List Call := []
  /-- What has been sent, with the call it is the response of. -/
  sent : List (Nat × Text) := []
  /-- The calls to whose responses the handler has written after they had returned. -/
  late : List Nat := []

namespace HandOver

inductive Label where
  /-- `accept` returns. -/
  | accept
  /-- `recv` returns; `none` is a `SOCKET_ERROR`. -/
  | receive (buff : Option Text)
  /-- The event ends the wait. -/
  | wake
  /-- The ten seconds are over. -/
  | timeout
  /-- `HandleRequestOnThread` returns after its wait. -/
  | leave
  /-- The UI thread runs the oldest task, and `handle` is what the handler does now. -/
  | runTask (handle : HttpRequest → List Write)
  /-- The handler makes its next call. -/
  | write
  | setEvent
  | setHandler (set : Bool)
  | stop
  /-- The wait of `Stop` is over because the thread has ended. -/
  | stopped
  /-- Its three seconds are over, and the thread is terminated. -/
  | terminate
  /-- `~HttpServer`, before which an owner calls `Stop`. -/
  | destroy

def returned (s : HandOver) (k : Nat) : Bool := s.calls[k]?.any Call.returned

def modifyCall (s : HandOver) (k : Nat) (f : Call → Call) : HandOver :=
  { s with calls := s.calls.modify k f }

/-- The end of a call. -/
def returnCall (s : HandOver) (k : Nat) : HandOver :=
  s.modifyCall k ({ · with returned := true })

/-- The end of `recv`, and `HandleRequestOnThread` up to its wait. -/
def post (s : HandOver) (buff : Text) : HandOver :=
  let reqData := cString buff
  let request := parseRequest reqData
  if request.path = "quit".toList then { s with thread := .ended }
  else
    { s with
      thread := .waiting s.calls.length
      calls := s.calls ++ [{ reqData := reqData }]
      uiTasks := s.uiTasks ++ [(s.calls.length, request)] }

/-- `HandleRequestOnThread` after its wait, and what `Run` does then. -/
def leaveCall (s : HandOver) (k : Nat) (signalled : Bool) (c : Call) : HandOver :=
  if s.quitFlag || !signalled then { s.returnCall k with thread := .ended }
  else
    { s.returnCall k with
      thread := .accepting
      sent := s.sent ++ [(k, responseToString c.response)] }

/-- `HandleRequest` up to the first call of the handler. -/
def handleRequest (s : HandOver) (handle : HttpRequest → List Write) (k : Nat)
    (request : HttpRequest) : HandOver :=
  if s.alive then
    let writes := if s.handler then handle request else []
    { s.modifyCall k ({ · with answer := some (request, writes) }) with ui := .handling k writes }
  else s

def step : Machine HandOver Label
  | s, .accept =>
    if s.thread = .accepting then
      some { s with thread := if s.quitFlag then .ended else .receiving }
    else none
  | s, .receive buff =>
    if s.thread = .receiving then
      match buff with
      | none => some { s with thread := .accepting }
      | some buff => some (s.post buff)
    else none
  | s, .wake =>
    match s.thread with
    | .waiting k =>
      if s.taskEvent then some { s with taskEvent := false, thread := .waited k true } else none
    | _ => none
  | s, .timeout =>
    match s.thread with
    | .waiting k => if s.taskEvent then none else some { s with thread := .waited k false }
    | _ => none
  | s, .leave =>
    match s.thread with
    | .waited k signalled => s.calls[k]?.map (s.leaveCall k signalled)
    | _ => none
  | s, .runTask handle =>
    match s.ui, s.uiTasks with
    | .idle, (k, request) :: uiTasks =>
      some { s.handleRequest handle k request with uiTasks := uiTasks }
    | _, _ => none
  | s, .write =>
    match s.ui with
    | .handling k (w :: writes) =>
      some { s.modifyCall k fun c => { c with response := c.response.write w } with
        ui := .handling k writes
        late := if s.returned k then s.late ++ [k] else s.late }
    | _ => none
  | s, .setEvent =>
    match s.ui with
    | .handling _ [] => some { s with taskEvent := true, ui := .idle }
    | .stopping false => some { s with taskEvent := true, ui := .stopping true }
    | _ => none
  | s, .setHandler set =>
    if s.ui = .idle ∧ s.alive then some { s with handler := set } else none
  | s, .stop =>
    if s.ui = .idle ∧ s.alive then
      some (if s.threadHandle then { s with quitFlag := true, ui := .stopping false } else s)
    else none
  | s, .stopped =>
    if s.ui = .stopping true ∧ s.thread = .ended then
      some { s with ui := .idle, threadHandle := false }
    else none
  | s, .terminate =>
    if s.ui = .stopping true then
      some { s with ui := .idle, threadHandle := false, thread := .ended }
    else none
  | s, .destroy =>
    if s.ui = .idle ∧ s.alive ∧ !s.threadHandle then some { s with alive := false } else none

/-- What the UI thread does when it goes on with its tasks. -/
def Label.goesOn : Label → Bool
  | .runTask _ => true
  | .write => true
  | .setEvent => true
  | .stopped => true
  | _ => false

/-- No response has been written to after its call had returned, nor will one be when the UI thread
goes on with its tasks. -/
def Harmless (s : HandOver) : Prop :=
  ∀ as t, (∀ a ∈ as, Label.goesOn a) → step.run s as = some t → t.late = []

/-- What has been sent is what the handler has made of the request of the same client. -/
def AnswersOwn (s : HandOver) : Prop :=
  ∀ k data, (k, data) ∈ s.sent → ∃ c writes, s.calls[k]? = some c ∧
    c.answer = some (parseRequest c.reqData, writes) ∧
    data = responseToString (({} : HttpResponse).writeAll writes)

def Safe (as : List Label) : Prop :=
  ∀ pre s, pre <+: as → step.run {} pre = some s → s.Harmless ∧ s.AnswersOwn

/-- The task of the call has something to write: it is queued, and the server is there and has a
handler, or the handler is at it. -/
def Armed (s : HandOver) (k : Nat) : Prop :=
  s.alive = true ∧ s.handler = true ∧ k ∈ s.uiTasks.map Prod.fst ∨
    ∃ w writes, s.ui = .handling k (w :: writes)

/-- No call returns whose task has something to write, and no handler is set for the task of a call
that has returned. -/
def Timely (s : HandOver) : Label → Prop
  | .leave => ∀ k signalled, s.thread = .waited k signalled → ¬ s.Armed k
  | .setHandler true =>
    s.ui = .idle → s.alive = true → ∀ k ∈ s.uiTasks.map Prod.fst, s.returned k = false
  | _ => True

/-! ## Steps -/

/-- What a step can be. -/
inductive Step (s : HandOver) : Label → HandOver → Prop
  | accept (hthread : s.thread = .accepting) :
      Step s .accept { s with thread := if s.quitFlag then .ended else .receiving }
  | receiveError (hthread : s.thread = .receiving) :
      Step s (.receive none) { s with thread := .accepting }
  | receive (buff : Text) (hthread : s.thread = .receiving) :
      Step s (.receive (some buff)) (s.post buff)
  | wake {k : Nat} (hthread : s.thread = .waiting k) (hevent : s.taskEvent = true) :
      Step s .wake { s with taskEvent := false, thread := .waited k true }
  | timeout {k : Nat} (hthread : s.thread = .waiting k) :
      Step s .timeout { s with thread := .waited k false }
  | leave {k : Nat} {signalled : Bool} {c : Call} (hthread : s.thread = .waited k signalled)
      (hcall : s.calls[k]? = some c) : Step s .leave (s.leaveCall k signalled c)
  | runTask {handle : HttpRequest → List Write} {k : Nat} {request : HttpRequest}
      {uiTasks : List (Nat × HttpRequest)} (hui : s.ui = .idle)
      (htasks : s.uiTasks = (k, request) :: uiTasks) :
      Step s (.runTask handle) { s.handleRequest handle k request with uiTasks := uiTasks }
  | write {k : Nat} {w : Write} {writes : List Write} (hui : s.ui = .handling k (w :: writes)) :
      Step s .write { s.modifyCall k fun c => { c with response := c.response.write w } with
        ui := .handling k writes
        late := if s.returned k then s.late ++ [k] else s.late }
  | setEvent {k : Nat} (hui : s.ui = .handling k []) :
      Step s .setEvent { s with taskEvent := true, ui := .idle }
  | stopEvent (hui : s.ui = .stopping false) :
      Step s .setEvent { s with taskEvent := true, ui := .stopping true }
  | setHandler {set : Bool} (hui : s.ui = .idle) (halive : s.alive = true) :
      Step s (.setHandler set) { s with handler := set }
  | stop (hui : s.ui = .idle) (hhandle : s.threadHandle = true) :
      Step s .stop { s with quitFlag := true, ui := .stopping false }
  | stopAgain (hui : s.ui = .idle) : Step s .stop s
  | stopped (hui : s.ui = .stopping true) (hthread : s.thread = .ended) :
      Step s .stopped { s with ui := .idle, threadHandle := false }
  | terminate (hui : s.ui = .stopping true) :
      Step s .terminate { s with ui := .idle, threadHandle := false, thread := .ended }
  | destroy (hui : s.ui = .idle) (hhandle : s.threadHandle = false) :
      Step s .destroy { s with alive := false }

variable {s t : HandOver} {a : Label}

theorem step_cases (h : step s a = some t) : Step s a t := by
  cases a with
  | accept =>
    simp only [step, Option.ite_none_right_eq_some, Option.some_inj] at h
    exact h.2 ▸ .accept h.1
  | receive buff =>
    simp only [step, Option.ite_none_right_eq_some] at h
    rcases buff with _ | buff
    · exact Option.some_inj.1 h.2 ▸ .receiveError h.1
    · exact Option.some_inj.1 h.2 ▸ .receive buff h.1
  | wake =>
    simp only [step] at h
    split at h
    · next hthread =>
      simp only [Option.ite_none_right_eq_some, Option.some_inj] at h
      exact h.2 ▸ .wake hthread h.1
    · exact nomatch h
  | timeout =>
    simp only [step] at h
    split at h
    · next hthread =>
      simp only [Option.ite_none_left_eq_some, Option.some_inj] at h
      exact h.2 ▸ .timeout hthread
    · exact nomatch h
  | leave =>
    simp only [step] at h
    split at h
    · next hthread =>
      obtain ⟨c, hc, rfl⟩ := Option.map_eq_some_iff.1 h
      exact .leave hthread hc
    · exact nomatch h
  | runTask handle =>
    simp only [step] at h
    split at h
    · next hui htasks => exact Option.some_inj.1 h ▸ .runTask hui htasks
    · exact nomatch h
  | write =>
    simp only [step] at h
    split at h
    · next hui => exact Option.some_inj.1 h ▸ .write hui
    · exact nomatch h
  | setEvent =>
    simp only [step] at h
    split at h
    · next hui => exact Option.some_inj.1 h ▸ .setEvent hui
    · next hui => exact Option.some_inj.1 h ▸ .stopEvent hui
    · exact nomatch h
  | setHandler set =>
    simp only [step, Option.ite_none_right_eq_some, Option.some_inj] at h
    exact h.2 ▸ .setHandler h.1.1 h.1.2
  | stop =>
    simp only [step, Option.ite_none_right_eq_some, Option.some_inj] at h
    obtain ⟨⟨hui, -⟩, h⟩ := h
    split at h
    · next hhandle => exact h ▸ .stop hui hhandle
    · exact h ▸ .stopAgain hui
  | stopped =>
    simp only [step, Option.ite_none_right_eq_some, Option.some_inj] at h
    exact h.2 ▸ .stopped h.1.1 h.1.2
  | terminate =>
    simp only [step, Option.ite_none_right_eq_some, Option.some_inj] at h
    exact h.2 ▸ .terminate h.1
  | destroy =>
    simp only [step, Option.ite_none_right_eq_some, Option.some_inj] at h
    exact h.2 ▸ .destroy h.1.1 (by simpa using h.1.2.2)

/-! ## Tasks that are left behind -/

/-- The task of a call that has returned has something to write. -/
def Loose (s : HandOver) : Prop := ∃ k, s.returned k = true ∧ s.Armed k

theorem returned_modify {k : Nat} {f : Call → Call} (ht : t.calls = s.calls.modify k f)
    (hf : ∀ c, (f c).returned = c.returned) (j : Nat) : t.returned j = s.returned j := by
  rw [returned, returned, ht, List.getElem?_modify]
  rcases s.calls[j]? with _ | c
  · rfl
  · show (if k = j then f c else c).returned = c.returned
    split
    · exact hf c
    · rfl

theorem returned_returnCall {k : Nat} (hk : k < s.calls.length)
    (ht : t.calls = (s.returnCall k).calls) (j : Nat) :
    t.returned j = true ↔ s.returned j = true ∨ j = k := by
  rw [returned, returned, ht, returnCall, modifyCall, List.getElem?_modify]
  rcases hj : s.calls[j]? with _ | c
  · rw [List.getElem?_eq_none_iff] at hj
    simp only [Option.map_eq_map, Option.map_none, Option.any_none, Bool.false_eq_true, false_or,
      false_iff]
    omega
  · show (if k = j then ({ c with returned := true } : Call) else c).returned = true ↔
      c.returned = true ∨ j = k
    split
    · next hkj => simp [hkj]
    · next hkj => simp [Ne.symm hkj]

/-- A call that begins has not returned. -/
theorem returned_append {reqData : Text} {j : Nat}
    (ht : t.calls = s.calls ++ [{ reqData := reqData }]) (h : t.returned j = true) :
    s.returned j = true ∧ j < s.calls.length := by
  rw [returned, ht] at h
  rcases Nat.lt_trichotomy j s.calls.length with hj | rfl | hj
  · rw [List.getElem?_append_left hj] at h
    exact ⟨h, hj⟩
  · rw [List.getElem?_concat_length] at h
    exact nomatch h
  · rw [List.getElem?_eq_none (by rw [List.length_append]; exact hj)] at h
    exact nomatch h

/-- A step after which no more calls have returned, and no more tasks have something to write. -/
theorem Loose.mono (h : t.Loose) (hreturned : ∀ k, t.returned k = s.returned k)
    (harmed : ∀ k, t.Armed k → s.Armed k) : s.Loose := by
  obtain ⟨k, hk, hw⟩ := h
  exact ⟨k, (hreturned k).symm.trans hk, harmed k hw⟩

/-- A call that returns, when no task has been left behind before. -/
theorem loose_return_iff (h : ¬ s.Loose) {k : Nat} (hk : k < s.calls.length)
    (ht : t.calls = (s.returnCall k).calls) (harmed : t.Armed = s.Armed) :
    t.Loose ↔ s.Armed k := by
  constructor
  · rintro ⟨j, hj, hw⟩
    rw [returned_returnCall hk ht] at hj
    rw [harmed] at hw
    rcases hj with hj | rfl
    · exact absurd ⟨j, hj, hw⟩ h
    · exact hw
  · intro hw
    exact ⟨k, (returned_returnCall hk ht k).2 (.inr rfl), harmed ▸ hw⟩

/-- The thread of `Run` is in a call that it has made. -/
def Thread.InCall (n : Nat) : Thread → Prop
  | .waiting k => k < n
  | .waited k _ => k < n
  | _ => True

/-- A step leaves no task behind if and only if it is timely. -/
theorem loose_step_iff (h : ¬ s.Loose) (hcall : s.thread.InCall s.calls.length)
    (hstep : Step s a t) : ¬ t.Loose ↔ s.Timely a := by
  cases hstep with
  | accept | receiveError | wake | timeout | stopAgain =>
    exact iff_of_true (fun hl => h (hl.mono (fun _ => rfl) fun _ => id)) trivial
  | receive buff =>
    refine iff_of_true (fun hl => h ?_) trivial
    rw [post] at hl
    split at hl
    · exact hl.mono (fun _ => rfl) fun _ => id
    · obtain ⟨k, hk, hw⟩ := hl
      obtain ⟨hk, hlt⟩ := returned_append rfl hk
      refine ⟨k, hk, hw.imp_left fun ⟨halive, hhandler, hmem⟩ => ⟨halive, hhandler, ?_⟩⟩
      rw [List.map_append, List.mem_append, List.map_singleton, List.mem_singleton] at hmem
      rcases hmem with hmem | rfl
      · exact hmem
      · exact absurd hlt (Nat.lt_irrefl _)
  | leave hthread hc =>
    rw [hthread] at hcall
    rw [leaveCall]
    split
    · refine (not_congr (loose_return_iff h hcall rfl rfl)).trans ?_
      simp [Timely, hthread]
    · refine (not_congr (loose_return_iff h hcall rfl rfl)).trans ?_
      simp [Timely, hthread]
  | runTask hui htasks =>
    refine iff_of_true (fun hl => h ?_) trivial
    rw [handleRequest] at hl
    split at hl
    · next halive =>
      refine hl.mono (returned_modify rfl fun _ => rfl) fun j hw => ?_
      rcases hw with ⟨-, hhandler, hmem⟩ | ⟨w, writes, hw⟩
      · refine .inl ⟨halive, hhandler, ?_⟩
        rw [htasks, List.map_cons]
        exact List.mem_cons_of_mem _ hmem
      · obtain ⟨rfl, hwrites⟩ := Ui.handling.inj hw
        split at hwrites
        · next hhandler =>
          refine .inl ⟨halive, hhandler, ?_⟩
          rw [htasks, List.map_cons]
          exact List.mem_cons_self
        · exact nomatch hwrites
    · next halive =>
      refine hl.mono (fun _ => rfl) fun j hw => ?_
      rcases hw with ⟨halive', -⟩ | hw
      · exact absurd halive' halive
      · exact .inr hw
  | write hui =>
    refine iff_of_true (fun hl => h ?_) trivial
    refine hl.mono (returned_modify rfl fun _ => rfl) fun j hw => hw.imp_right ?_
    rintro ⟨w, writes, hw⟩
    obtain ⟨rfl, rfl⟩ := Ui.handling.inj hw
    exact ⟨_, _, hui⟩
  | setEvent hui | stopEvent hui | stop hui | stopped hui | terminate hui =>
    refine iff_of_true (fun hl => h (hl.mono (fun _ => rfl) fun _ hw => ?_)) trivial
    exact hw.imp_right fun ⟨_, _, hw⟩ => nomatch hw
  | destroy hui hhandle =>
    refine iff_of_true (fun hl => h (hl.mono (fun _ => rfl) fun _ hw => ?_)) trivial
    exact hw.imp_left fun ⟨halive, _⟩ => nomatch halive
  | @setHandler set hui halive =>
    rcases set with _ | _
    · refine iff_of_true (fun hl => h (hl.mono (fun _ => rfl) fun _ hw => ?_)) trivial
      exact hw.imp_left fun ⟨_, hset, _⟩ => nomatch hset
    · constructor
      · intro hl _ _ k hk
        refine Bool.eq_false_iff.2 fun hreturned => hl ⟨k, hreturned, .inl ⟨halive, rfl, hk⟩⟩
      · rintro htimely ⟨k, hk, ⟨-, -, hmem⟩ | ⟨w, writes, hw⟩⟩
        · exact Bool.eq_false_iff.1 (htimely hui halive k hmem) hk
        · exact nomatch hui.symm.trans hw

/-- A late write is one for a task that has been left behind. -/
theorem late_step (h : ¬ s.Loose) (hstep : Step s a t) (hlate : s.late = []) : t.late = [] := by
  cases hstep with
  | receive buff =>
    rw [post]
    split
    · exact hlate
    · exact hlate
  | leave _ hc =>
    rw [leaveCall]
    split
    · exact hlate
    · exact hlate
  | runTask =>
    rw [handleRequest]
    split
    · exact hlate
    · exact hlate
  | write hui =>
    show (if s.returned _ then s.late ++ [_] else s.late) = []
    rw [if_neg fun hk => h ⟨_, hk, .inr ⟨_, _, hui⟩⟩]
    exact hlate
  | _ => exact hlate

/-! ## The task of the last call -/

/-- The handler has been called with the request, and is done when it has made these calls. -/
def Answering (c : Call) (writes : List Write) : Prop :=
  ∃ all, c.answer = some (parseRequest c.reqData, all) ∧
    c.response.writeAll writes = ({} : HttpResponse).writeAll all

/-- No task is queued, and the UI thread is in none. -/
def Quiet (s : HandOver) : Prop := s.uiTasks = [] ∧ s.ui.call = none

/-- How far the task of a call has got. -/
inductive Stage (s : HandOver) (k : Nat) (c : Call) : Prop
  | queued (htasks : s.uiTasks = [(k, parseRequest c.reqData)]) (hui : s.ui.call = none)
      (hresponse : c.response = {})
  | handling (writes : List Write) (hui : s.ui = .handling k writes) (htasks : s.uiTasks = [])
      (hanswer : Answering c writes)
  | done (hquiet : s.Quiet) (hanswer : Answering c [])
  | dropped (hquiet : s.Quiet) (halive : s.alive = false)

/-- What the thread of `Run` can rely on. -/
def ThreadInv (s : HandOver) : Thread → Prop
  | .accepting | .receiving => s.Quiet ∧ (s.taskEvent = true → s.quitFlag = true)
  | .waiting k =>
    k + 1 = s.calls.length ∧ s.returned k = false ∧
      (s.taskEvent = true → s.quitFlag = true ∨ s.Quiet)
  | .waited k signalled =>
    k + 1 = s.calls.length ∧ s.returned k = false ∧
      (signalled = true → (s.quitFlag = true ∨ s.Quiet) ∧ (s.taskEvent = true → s.quitFlag = true))
  | .ended => True

/-- Only the last call can have a task, and what has been sent is right. -/
structure Inv (s : HandOver) : Prop where
  first : s.calls = [] → s.Quiet
  last : ∀ k c, k + 1 = s.calls.length → s.calls[k]? = some c → s.Stage k c
  thread : s.ThreadInv s.thread
  stopping : ∀ set, s.ui = .stopping set → s.quitFlag = true
  threadHandle : s.threadHandle = false → s.thread = .ended
  alive : s.alive = false → s.threadHandle = false
  answersOwn : s.AnswersOwn
  settled : ∀ k data, (k, data) ∈ s.sent → k + 1 = s.calls.length → s.Quiet

theorem inv_start : Inv {} where
  first _ := ⟨rfl, rfl⟩
  last _ _ h := nomatch h
  thread := ⟨⟨rfl, rfl⟩, (nomatch ·)⟩
  stopping _ h := nomatch h
  threadHandle h := nomatch h
  alive h := nomatch h
  answersOwn _ _ h := nomatch h
  settled _ _ h := nomatch h

theorem Inv.inCall (h : s.Inv) : s.thread.InCall s.calls.length := by
  have hthread := h.thread
  rcases hs : s.thread with _ | _ | k | ⟨k, signalled⟩ | _
  · trivial
  · trivial
  · rw [hs] at hthread
    exact Nat.lt_of_succ_le (Nat.le_of_eq hthread.1)
  · rw [hs] at hthread
    exact Nat.lt_of_succ_le (Nat.le_of_eq hthread.1)
  · trivial

theorem Quiet.mono (h : s.Quiet) (htasks : t.uiTasks = s.uiTasks) (hui : t.ui.call = s.ui.call) :
    t.Quiet := ⟨htasks.trans h.1, hui.trans h.2⟩

theorem Stage.mono {k : Nat} {c : Call} (h : s.Stage k c) (htasks : t.uiTasks = s.uiTasks)
    (hui : t.ui = s.ui ∨ s.ui.call = none ∧ t.ui.call = none)
    (halive : s.alive = false → t.alive = false) : t.Stage k c := by
  have hcall : t.ui.call = s.ui.call := by
    rcases hui with hui | ⟨hs, ht⟩
    · rw [hui]
    · rw [hs, ht]
  cases h with
  | queued hqueue hidle hresponse => 
    exact .queued (htasks.trans hqueue) (hcall.trans hidle) hresponse
  | handling writes hhandling hqueue hanswer =>
    rcases hui with hui | ⟨hs, -⟩
    · exact .handling writes (hui.trans hhandling) (htasks.trans hqueue) hanswer
    · rw [hhandling] at hs
      exact nomatch hs
  | done hquiet hanswer => exact .done (hquiet.mono htasks hcall) hanswer
  | dropped hquiet hdead => exact .dropped (hquiet.mono htasks hcall) (halive hdead)

/-- A task that is queued, or that the UI thread is in, is that of the last call. -/
theorem Inv.busy (h : s.Inv) (hbusy : ¬ s.Quiet) : ∃ k c, k + 1 = s.calls.length ∧
    s.calls[k]? = some c ∧ s.Stage k c := by
  obtain ⟨k, hk⟩ := Nat.exists_eq_succ_of_ne_zero fun hzero =>
    hbusy (h.first (List.eq_nil_of_length_eq_zero hzero))
  have hc := List.getElem?_eq_getElem (show k < s.calls.length by omega)
  exact ⟨k, _, hk.symm, hc, h.last k _ hk.symm hc⟩

/-- A change of the thread alone. -/
theorem Inv.moveThread (h : s.Inv) (hs : s.thread ≠ .ended) {thread : Thread} {taskEvent : Bool}
    (hthread : ThreadInv { s with thread := thread, taskEvent := taskEvent } thread) :
    Inv { s with thread := thread, taskEvent := taskEvent } where
  first := h.first
  last k c hk hc := (h.last k c hk hc).mono rfl (.inl rfl) id
  thread := hthread
  stopping := h.stopping
  threadHandle hhandle := absurd (h.threadHandle hhandle) hs
  alive := h.alive
  answersOwn := h.answersOwn
  settled := h.settled

/-- A change of the UI thread alone, when it is in no task. -/
theorem Inv.moveUi (h : s.Inv) (hs : s.ui.call = none) {ui : Ui} (hui : ui.call = none)
    {taskEvent quitFlag threadHandle : Bool} {thread : Thread}
    (hthread : ThreadInv { s with ui, taskEvent, quitFlag, threadHandle, thread } thread)
    (hstopping : ∀ set, ui = .stopping set → quitFlag = true)
    (hhandle : threadHandle = false → thread = .ended)
    (halive : s.threadHandle = false → threadHandle = false) :
    Inv { s with ui, taskEvent, quitFlag, threadHandle, thread } where
  first hcalls := (h.first hcalls).mono rfl (hui.trans hs.symm)
  last k c hk hc := (h.last k c hk hc).mono rfl (.inr ⟨hs, hui⟩) id
  thread := hthread
  stopping := hstopping
  threadHandle := hhandle
  alive hdead := halive (h.alive hdead)
  answersOwn := h.answersOwn
  settled k data hsent hk := (h.settled k data hsent hk).mono rfl (hui.trans hs.symm)

theorem getElem?_returnCall {k j : Nat} {c : Call} (h : (s.returnCall k).calls[j]? = some c) :
    ∃ c', s.calls[j]? = some c' ∧ (c = c' ∨ c = { c' with returned := true }) := by
  rw [returnCall, modifyCall, List.getElem?_modify] at h
  obtain ⟨c', hc', rfl⟩ := Option.map_eq_some_iff.1 h
  refine ⟨c', hc', ?_⟩
  split
  · exact .inr rfl
  · exact .inl rfl

theorem Stage.returnCall {k j : Nat} {c : Call} (h : ∀ c, s.calls[j]? = some c → s.Stage j c)
    (hc : (s.returnCall k).calls[j]? = some c) : s.Stage j c := by
  obtain ⟨c', hc', rfl | rfl⟩ := getElem?_returnCall hc
  · exact h c hc'
  · cases h c' hc' with
    | queued htasks hui hresponse => exact .queued htasks hui hresponse
    | handling writes hui htasks hanswer => exact .handling writes hui htasks hanswer
    | done hquiet hanswer => exact .done hquiet hanswer
    | dropped hquiet halive => exact .dropped hquiet halive

/-- The calls whose responses have been sent keep their requests and their answers. -/
theorem AnswersOwn.mono (h : s.AnswersOwn) (hsent : t.sent = s.sent)
    (hcalls : ∀ k data c, (k, data) ∈ s.sent → s.calls[k]? = some c →
      ∃ c', t.calls[k]? = some c' ∧ c'.reqData = c.reqData ∧ c'.answer = c.answer) :
    t.AnswersOwn := by
  intro k data hk
  rw [hsent] at hk
  obtain ⟨c, writes, hc, hanswer, hdata⟩ := h k data hk
  obtain ⟨c', hc', hreq, hanswer'⟩ := hcalls k data c hk hc
  exact ⟨c', writes, hc', by rw [hanswer', hreq, hanswer], hdata⟩

theorem exists_modify {k j : Nat} {f : Call → Call} {c : Call}
    (hreq : ∀ c, (f c).reqData = c.reqData) (hanswer : k = j → ∀ c, (f c).answer = c.answer)
    (h : s.calls[j]? = some c) : ∃ c', (s.modifyCall k f).calls[j]? = some c' ∧
      c'.reqData = c.reqData ∧ c'.answer = c.answer := by
  refine ⟨if k = j then f c else c, ?_, ?_⟩
  · rw [modifyCall, List.getElem?_modify, h]
    rfl
  · split
    · next hkj => exact ⟨hreq c, hanswer hkj c⟩
    · exact ⟨rfl, rfl⟩

theorem length_returnCall (s : HandOver) (k : Nat) :
    (s.returnCall k).calls.length = s.calls.length := List.length_modify _ _ _

/-- The end of a call. -/
theorem Inv.returnCall (h : s.Inv) (hs : s.thread ≠ .ended) (k : Nat) {thread : Thread}
    {sent : List (Nat × Text)}
    (hthread : ThreadInv { s.returnCall k with thread, sent } thread)
    (hown : AnswersOwn { s.returnCall k with thread, sent })
    (hsettled : ∀ j data, (j, data) ∈ sent → j + 1 = s.calls.length → s.Quiet) :
    Inv { s.returnCall k with thread, sent } where
  first hcalls := h.first (List.eq_nil_of_length_eq_zero
    ((length_returnCall s k).symm.trans (List.length_eq_zero_iff.2 hcalls)))
  last j _ hj hc := (Stage.returnCall
    (fun c' => h.last j c' (hj.trans (length_returnCall s k))) hc).mono rfl (.inl rfl) id
  thread := hthread
  stopping := h.stopping
  threadHandle hhandle := absurd (h.threadHandle hhandle) hs
  alive := h.alive
  answersOwn := hown
  settled j data hj hlast := hsettled j data hj (hlast.trans (length_returnCall s k))

/-- A call that has been signalled has the answer, unless the server is to quit. -/
theorem Inv.answering (h : s.Inv) {k : Nat} {c : Call} (hs : s.thread = .waited k true)
    (hc : s.calls[k]? = some c) (hquit : s.quitFlag = false) : s.Quiet ∧ Answering c [] := by
  have hthread := h.thread
  rw [hs] at hthread
  obtain ⟨hk, -, hsignalled⟩ := hthread
  have hquiet := (hsignalled rfl).1.resolve_left (by rw [hquit]; exact Bool.false_ne_true)
  cases h.last k c hk hc with
  | queued htasks => exact nomatch htasks.symm.trans hquiet.1
  | handling writes hui =>
    have hcall := hquiet.2
    rw [hui] at hcall
    exact nomatch hcall
  | done _ hanswer => exact ⟨hquiet, hanswer⟩
  | dropped _ halive => exact nomatch hs.symm.trans (h.threadHandle (h.alive halive))

theorem Inv.leaveCall (h : s.Inv) {k : Nat} {signalled : Bool} {c : Call}
    (hs : s.thread = .waited k signalled) (hc : s.calls[k]? = some c) :
    (s.leaveCall k signalled c).Inv := by
  have hne : s.thread ≠ .ended := by
    rw [hs]
    exact (nomatch ·)
  have hown : ∀ thread, AnswersOwn { s.returnCall k with thread } := fun thread =>
    h.answersOwn.mono rfl fun _ _ _ _ hc => exists_modify (fun _ => rfl) (fun _ _ => rfl) hc
  rw [HandOver.leaveCall]
  split
  · exact h.returnCall hne k trivial (hown _) h.settled
  · next hquit =>
    rw [Bool.or_eq_true, not_or, Bool.not_eq_true, Bool.not_eq_true, Bool.not_eq_false'] at hquit
    obtain ⟨hquit, rfl⟩ := hquit
    obtain ⟨hquiet, all, hanswer, hwrites⟩ := h.answering hs hc hquit
    have hthread := h.thread
    rw [hs] at hthread
    obtain ⟨hk, -, hsignalled⟩ := hthread
    refine h.returnCall hne k ⟨hquiet, (hsignalled rfl).2⟩ ?_ ?_
    · intro j data hj
      rcases List.mem_append.1 hj with hj | hj
      · exact hown .accepting j data hj
      · obtain ⟨rfl, rfl⟩ := Prod.mk.inj (List.mem_singleton.1 hj)
        obtain ⟨c', hc', hreq, hanswer'⟩ :=
          exists_modify (s := s) (k := j) (f := ({ · with returned := true })) (fun _ => rfl)
            (fun _ _ => rfl) hc
        refine ⟨c', all, hc', ?_, congrArg responseToString hwrites⟩
        rw [hanswer', hreq, hanswer]
    · exact fun _ _ _ _ => hquiet

theorem Inv.post (h : s.Inv) (hs : s.thread = .receiving) (buff : Text) : (s.post buff).Inv := by
  have hne : s.thread ≠ .ended := by
    rw [hs]
    exact (nomatch ·)
  have hthread := h.thread
  rw [hs] at hthread
  obtain ⟨hquiet, hevent⟩ := hthread
  rw [HandOver.post]
  split
  · exact h.moveThread hne trivial
  · have hsent : ∀ k data, (k, data) ∈ s.sent → k < s.calls.length := fun k data hk => by
      obtain ⟨c, -, hc, -⟩ := h.answersOwn k data hk
      exact (List.getElem?_eq_some_iff.1 hc).1
    exact {
      first := fun hcalls => absurd hcalls (List.concat_ne_nil _ _)
      last := fun k c hk hc => by
        obtain rfl : k = s.calls.length := by simpa using hk
        obtain rfl := Option.some_inj.1 (List.getElem?_concat_length.symm.trans hc)
        exact .queued (congrArg (· ++ _) hquiet.1) hquiet.2 rfl
      thread := ⟨by simp, by rw [returned, List.getElem?_concat_length]; rfl, (.inl <| hevent ·)⟩
      stopping := h.stopping
      threadHandle := fun hhandle => absurd (h.threadHandle hhandle) hne
      alive := h.alive
      answersOwn := h.answersOwn.mono rfl fun k data c hk hc =>
        ⟨c, (List.getElem?_append_left (hsent k data hk)).trans hc, rfl, rfl⟩
      settled := fun k data hk hlast => by
        have hlt := hsent k data hk
        rw [List.length_append, List.length_singleton] at hlast
        omega }

theorem ThreadInv.mono {thread : Thread} (h : s.ThreadInv thread)
    (hcalls : t.calls.length = s.calls.length) (hreturned : ∀ k, t.returned k = s.returned k)
    (hevent : t.taskEvent = true → t.quitFlag = true ∨ s.taskEvent = true)
    (hquit : s.quitFlag = true → t.quitFlag = true) (hquiet : s.Quiet → t.Quiet) :
    t.ThreadInv thread := by
  rcases thread with _ | _ | k | ⟨k, signalled⟩ | _
  · exact ⟨hquiet h.1, fun ht => (hevent ht).elim id fun hs => hquit (h.2 hs)⟩
  · exact ⟨hquiet h.1, fun ht => (hevent ht).elim id fun hs => hquit (h.2 hs)⟩
  · exact ⟨h.1.trans hcalls.symm, (hreturned k).trans h.2.1,
      fun ht => (hevent ht).elim .inl fun hs => (h.2.2 hs).imp hquit hquiet⟩
  · refine ⟨h.1.trans hcalls.symm, (hreturned k).trans h.2.1, fun hsignalled => ?_⟩
    obtain ⟨hdone, hset⟩ := h.2.2 hsignalled
    exact ⟨hdone.imp hquit hquiet, fun ht => (hevent ht).elim id fun hs => hquit (hset hs)⟩
  · trivial

/-- A step of the UI thread in the task of the last call. -/
theorem Inv.modifyLast (h : s.Inv) (hbusy : ¬ s.Quiet) {k : Nat} {c : Call}
    (hk : k + 1 = s.calls.length) (hc : s.calls[k]? = some c) {f : Call → Call}
    (hreturned : ∀ c, (f c).returned = c.returned) (hreq : ∀ c, (f c).reqData = c.reqData)
    {writes : List Write} {uiTasks : List (Nat × HttpRequest)} {late : List Nat}
    (htasks : uiTasks = []) (hanswer : Answering (f c) writes) :
    Inv { s.modifyCall k f with ui := .handling k writes, uiTasks, late } := by
  have hlen : (s.modifyCall k f).calls.length = s.calls.length := List.length_modify _ _ _
  have hne : ∀ j data, (j, data) ∈ s.sent → k ≠ j := fun j data hj hkj =>
    hbusy (h.settled j data hj (hkj ▸ hk))
  exact {
    first := fun hcalls => by
      have hzero := hlen.symm.trans (List.length_eq_zero_iff.2 hcalls)
      omega
    last := fun j c' hj hc' => by
      obtain rfl : j = k := Nat.succ.inj (hj.trans (hlen.trans hk.symm))
      have hmodify : (s.modifyCall j f).calls[j]? = some (f c) := by
        rw [modifyCall, List.getElem?_modify_eq, hc]
        rfl
      obtain rfl := Option.some_inj.1 (hmodify.symm.trans hc')
      exact .handling writes rfl htasks hanswer
    thread := h.thread.mono hlen (returned_modify rfl hreturned) .inr id (absurd · hbusy)
    stopping := fun _ hui => nomatch hui
    threadHandle := h.threadHandle
    alive := h.alive
    answersOwn := h.answersOwn.mono rfl fun j data _ hj hc =>
      exists_modify hreq (fun hkj => absurd hkj (hne j data hj)) hc
    settled := fun j data hj hlast =>
      absurd (h.settled j data hj (hlast.trans hlen)) hbusy }

theorem Inv.handleRequest (h : s.Inv) {handle : HttpRequest → List Write} {k : Nat}
    {request : HttpRequest} {uiTasks : List (Nat × HttpRequest)} (hui : s.ui = .idle)
    (htasks : s.uiTasks = (k, request) :: uiTasks) :
    Inv { s.handleRequest handle k request with uiTasks } := by
  have hbusy : ¬ s.Quiet := fun hquiet => nomatch htasks.symm.trans hquiet.1
  obtain ⟨j, c, hj, hc, hstage⟩ := h.busy hbusy
  cases hstage with
  | queued hqueue _ hresponse =>
    obtain ⟨hhead, rfl⟩ := List.cons.inj (htasks.symm.trans hqueue)
    obtain ⟨rfl, rfl⟩ := Prod.mk.inj hhead
    rw [HandOver.handleRequest]
    split
    · exact h.modifyLast hbusy hj hc
        (f := ({ · with answer := some (_, if s.handler then handle _ else []) }))
        (fun _ => rfl) (fun _ => rfl) rfl
        ⟨_, rfl, congrArg (HttpResponse.writeAll · _) hresponse⟩
    · next halive =>
      have hquiet : Quiet { s with uiTasks := [] } := ⟨rfl, by rw [hui]; rfl⟩
      exact {
        first := fun _ => hquiet
        last := fun _ _ _ _ => .dropped hquiet (Bool.eq_false_iff.2 halive)
        thread := h.thread.mono rfl (fun _ => rfl) .inr id fun _ => hquiet
        stopping := h.stopping
        threadHandle := h.threadHandle
        alive := h.alive
        answersOwn := h.answersOwn
        settled := fun _ _ _ _ => hquiet }
  | handling _ hhandling => exact nomatch hui.symm.trans hhandling
  | done hquiet => exact absurd hquiet hbusy
  | dropped hquiet => exact absurd hquiet hbusy

/-- The task that the UI thread is in. -/
theorem Inv.handling (h : s.Inv) {k : Nat} {writes : List Write} (hui : s.ui = .handling k writes) :
    ¬ s.Quiet ∧ s.uiTasks = [] ∧ ∃ c, k + 1 = s.calls.length ∧ s.calls[k]? = some c ∧
      Answering c writes := by
  have hbusy : ¬ s.Quiet := fun hquiet => by
    have hcall := hquiet.2
    rw [hui] at hcall
    exact nomatch hcall
  obtain ⟨j, c, hj, hc, hstage⟩ := h.busy hbusy
  cases hstage with
  | queued _ hcall =>
    rw [hui] at hcall
    exact nomatch hcall
  | handling _ hhandling htasks hanswer =>
    obtain ⟨rfl, rfl⟩ := Ui.handling.inj (hui.symm.trans hhandling)
    exact ⟨hbusy, htasks, c, hj, hc, hanswer⟩
  | done hquiet => exact absurd hquiet hbusy
  | dropped hquiet => exact absurd hquiet hbusy

theorem Inv.write (h : s.Inv) {k : Nat} {w : Write} {writes : List Write} {late : List Nat}
    (hui : s.ui = .handling k (w :: writes)) :
    Inv { s.modifyCall k fun c => { c with response := c.response.write w } with
        ui := .handling k writes, late } := by
  obtain ⟨hbusy, htasks, c, hk, hc, hanswer⟩ := h.handling hui
  exact h.modifyLast hbusy hk hc (f := fun c => { c with response := c.response.write w })
    (fun _ => rfl) (fun _ => rfl) htasks hanswer

theorem Inv.setEvent (h : s.Inv) {k : Nat} (hui : s.ui = .handling k []) :
    Inv { s with taskEvent := true, ui := .idle } := by
  obtain ⟨hbusy, htasks, c, hk, hc, hanswer⟩ := h.handling hui
  have hquiet : Quiet { s with taskEvent := true, ui := .idle } := ⟨htasks, rfl⟩
  have hthread := h.thread
  exact {
    first := fun _ => hquiet
    last := fun j c' hj hc' => by
      obtain rfl : j = k := Nat.succ.inj (hj.trans hk.symm)
      obtain rfl := Option.some_inj.1 (hc.symm.trans hc')
      exact .done hquiet hanswer
    thread := by
      show ThreadInv _ s.thread
      generalize s.thread = thread at hthread ⊢
      rcases thread with _ | _ | j | ⟨j, signalled⟩ | _
      · exact absurd hthread.1 hbusy
      · exact absurd hthread.1 hbusy
      · exact ⟨hthread.1, hthread.2.1, fun _ => .inr hquiet⟩
      · refine ⟨hthread.1, hthread.2.1, fun hsignalled => ?_⟩
        have hquit := (hthread.2.2 hsignalled).1.resolve_right hbusy
        exact ⟨.inl hquit, fun _ => hquit⟩
      · trivial
    stopping := fun _ hidle => nomatch hidle
    threadHandle := h.threadHandle
    alive := h.alive
    answersOwn := h.answersOwn
    settled := fun _ _ _ _ => hquiet }

theorem Inv.step (h : s.Inv) (hstep : Step s a t) : t.Inv := by
  cases hstep with
  | accept hthread =>
    have hinv := h.thread
    rw [hthread] at hinv
    refine h.moveThread (by rw [hthread]; exact (nomatch ·)) ?_
    split
    · trivial
    · exact hinv
  | receiveError hthread =>
    have hinv := h.thread
    rw [hthread] at hinv
    exact h.moveThread (by rw [hthread]; exact (nomatch ·)) hinv
  | receive buff hthread => exact h.post hthread buff
  | wake hthread hevent =>
    have hinv := h.thread
    rw [hthread] at hinv
    exact h.moveThread (by rw [hthread]; exact (nomatch ·))
      ⟨hinv.1, hinv.2.1, fun _ => ⟨hinv.2.2 hevent, (nomatch ·)⟩⟩
  | timeout hthread =>
    have hinv := h.thread
    rw [hthread] at hinv
    exact h.moveThread (by rw [hthread]; exact (nomatch ·)) ⟨hinv.1, hinv.2.1, (nomatch ·)⟩
  | leave hthread hc => exact h.leaveCall hthread hc
  | runTask hui htasks => exact h.handleRequest hui htasks
  | write hui => exact h.write hui
  | setEvent hui => exact h.setEvent hui
  | stopEvent hui =>
    have hcall : s.ui.call = none := by rw [hui]; rfl
    refine h.moveUi hcall rfl (h.thread.mono rfl (fun _ => rfl) ?_ id ?_) ?_ h.threadHandle id
    · exact fun _ => .inl (h.stopping false hui)
    · exact fun hquiet => hquiet.mono rfl hcall.symm
    · exact fun _ _ => h.stopping false hui
  | setHandler hui halive =>
    exact {
      first := h.first
      last := fun k c hk hc => (h.last k c hk hc).mono rfl (.inl rfl) id
      thread := h.thread.mono rfl (fun _ => rfl) .inr id id
      stopping := h.stopping
      threadHandle := h.threadHandle
      alive := h.alive
      answersOwn := h.answersOwn
      settled := h.settled }
  | stop hui hhandle =>
    have hcall : s.ui.call = none := by rw [hui]; rfl
    refine h.moveUi hcall rfl (h.thread.mono rfl (fun _ => rfl) ?_ ?_ ?_) ?_ h.threadHandle id
    · exact fun _ => .inl rfl
    · exact fun _ => rfl
    · exact fun hquiet => hquiet.mono rfl hcall.symm
    · exact fun _ _ => rfl
  | stopAgain hui => exact h
  | stopped hui hthread =>
    have hcall : s.ui.call = none := by rw [hui]; rfl
    refine h.moveUi hcall rfl (h.thread.mono rfl (fun _ => rfl) .inr id ?_) ?_ ?_ ?_
    · exact fun hquiet => hquiet.mono rfl hcall.symm
    · exact fun _ hidle => nomatch hidle
    · exact fun _ => hthread
    · exact fun _ => rfl
  | terminate hui =>
    have hcall : s.ui.call = none := by rw [hui]; rfl
    refine h.moveUi hcall rfl trivial ?_ ?_ ?_
    · exact fun _ hidle => nomatch hidle
    · exact fun _ => rfl
    · exact fun _ => rfl
  | destroy hui hhandle =>
    exact {
      first := h.first
      last := fun k c hk hc => (h.last k c hk hc).mono rfl (.inl rfl) fun _ => rfl
      thread := h.thread.mono rfl (fun _ => rfl) .inr id id
      stopping := h.stopping
      threadHandle := h.threadHandle
      alive := fun _ => hhandle
      answersOwn := h.answersOwn
      settled := h.settled }

/-! ## Runs -/

theorem Harmless.late_eq_nil (h : s.Harmless) : s.late = [] :=
  h [] s (fun _ ha => absurd ha List.not_mem_nil) rfl

theorem Harmless.step (h : s.Harmless) (ha : a.goesOn = true) (hstep : step s a = some t) :
    t.Harmless := fun as u has hu =>
  h (a :: as) u (List.forall_mem_cons.2 ⟨ha, has⟩) (Machine.run_cons.2 ⟨t, hstep, hu⟩)

theorem Harmless.handling (h : s.Harmless) {k : Nat} {w : Write} {writes : List Write}
    (hui : s.ui = .handling k (w :: writes)) : s.returned k = false := by
  refine Bool.eq_false_iff.2 fun hk => ?_
  have hlate := (h.step (a := .write) rfl (by rw [HandOver.step, hui])).late_eq_nil
  rw [if_pos hk] at hlate
  exact List.concat_ne_nil _ _ hlate

theorem Harmless.idle (h : s.Harmless) {k : Nat} {request : HttpRequest}
    {uiTasks : List (Nat × HttpRequest)} (hui : s.ui = .idle) (halive : s.alive = true)
    (hhandler : s.handler = true) (htasks : s.uiTasks = (k, request) :: uiTasks) :
    s.returned k = false := by
  have hrun := h.step (a := .runTask fun _ => [.setBody []]) rfl
    (by rw [HandOver.step, hui, htasks])
  rw [handleRequest, if_pos halive, if_pos hhandler] at hrun
  exact (returned_modify (f := ({ · with answer := some (request, [.setBody []]) })) rfl
    (fun _ => rfl) k).symm.trans (hrun.handling rfl)

theorem Harmless.stopping (h : s.Harmless) {k : Nat} {request : HttpRequest}
    {uiTasks : List (Nat × HttpRequest)} (hui : s.ui = .stopping true) (hthread : s.thread = .ended)
    (halive : s.alive = true) (hhandler : s.handler = true)
    (htasks : s.uiTasks = (k, request) :: uiTasks) : s.returned k = false :=
  (h.step (a := .stopped) rfl (if_pos ⟨hui, hthread⟩)).idle rfl halive hhandler htasks

theorem Harmless.queued (h : s.Harmless) {k : Nat} {request : HttpRequest}
    {uiTasks : List (Nat × HttpRequest)} (hcall : s.ui.call = none) (hthread : s.thread = .ended)
    (halive : s.alive = true) (hhandler : s.handler = true)
    (htasks : s.uiTasks = (k, request) :: uiTasks) : s.returned k = false := by
  rcases hui : s.ui with _ | _ | set
  · exact h.idle hui halive hhandler htasks
  · rw [hui] at hcall
    exact nomatch hcall
  · cases set with
    | true => exact h.stopping hui hthread halive hhandler htasks
    | false =>
      have hset := h.step (a := .setEvent) rfl (by rw [HandOver.step, hui])
      exact hset.stopping rfl hthread halive hhandler htasks

/-- While a task is left a call has returned only if its thread has ended. -/
theorem Inv.ended (h : s.Inv) (hbusy : ¬ s.Quiet) {k : Nat} (hk : k + 1 = s.calls.length)
    (hreturned : s.returned k = true) : s.thread = .ended := by
  have hthread := h.thread
  generalize s.thread = thread at hthread ⊢
  rcases thread with _ | _ | j | ⟨j, signalled⟩ | _
  · exact absurd hthread.1 hbusy
  · exact absurd hthread.1 hbusy
  · obtain rfl : j = k := Nat.succ.inj (hthread.1.trans hk.symm)
    exact nomatch hthread.2.1.symm.trans hreturned
  · obtain rfl : j = k := Nat.succ.inj (hthread.1.trans hk.symm)
    exact nomatch hthread.2.1.symm.trans hreturned
  · rfl

/-- The UI thread comes to a task that has been left behind. -/
theorem Inv.not_loose (h : s.Inv) (hharmless : s.Harmless) : ¬ s.Loose := by
  rintro ⟨k, hk, ⟨halive, hhandler, hmem⟩ | ⟨w, writes, hui⟩⟩
  · have hbusy : ¬ s.Quiet := fun hquiet => by
      rw [hquiet.1] at hmem
      exact List.not_mem_nil hmem
    obtain ⟨j, c, hj, hc, hstage⟩ := h.busy hbusy
    cases hstage with
    | queued htasks hcall =>
      rw [htasks, List.map_singleton, List.mem_singleton] at hmem
      obtain rfl := hmem
      exact nomatch hk.symm.trans
        (hharmless.queued hcall (h.ended hbusy hj hk) halive hhandler htasks)
    | handling _ _ htasks =>
      rw [htasks] at hmem
      exact List.not_mem_nil hmem
    | done hquiet => exact absurd hquiet hbusy
    | dropped hquiet => exact absurd hquiet hbusy
  · exact nomatch hk.symm.trans (hharmless.handling hui)

/-- What the UI thread does by itself is timely. -/
theorem timely_of_goesOn (ha : a.goesOn = true) : s.Timely a := by
  cases a with
  | runTask | write | setEvent | stopped => trivial
  | _ => exact nomatch ha

/-- What holds as long as the steps are timely. -/
structure Clean (s : HandOver) : Prop where
  inv : s.Inv
  late : s.late = []
  loose : ¬ s.Loose

theorem Clean.step (h : s.Clean) (ha : s.Timely a) (hstep : HandOver.step s a = some t) :
    t.Clean :=
  have hstep := step_cases hstep
  ⟨h.inv.step hstep, late_step h.loose hstep h.late,
    (loose_step_iff h.loose h.inv.inCall hstep).2 ha⟩

theorem Clean.harmless (h : s.Clean) : s.Harmless := fun _ _ has hrun =>
  (Machine.run_invariant_of_meets (fun _ _ _ hs ha hstep => hs.step (timely_of_goesOn ha) hstep) h
    (Machine.meets_labels has s) hrun).late

/-- A step that is refused is timely. -/
theorem Clean.timely_of_refused (h : s.Clean) (hstep : HandOver.step s a = none) : s.Timely a := by
  cases a with
  | leave =>
    intro k signalled hthread
    have hcall := h.inv.inCall
    rw [hthread] at hcall
    rw [HandOver.step, hthread] at hstep
    have hlen := List.getElem?_eq_none_iff.1 (Option.map_eq_none_iff.1 hstep)
    exact absurd hcall (Nat.not_lt_of_le hlen)
  | setHandler set =>
    cases set with
    | true =>
      intro hui halive
      rw [HandOver.step, if_pos ⟨hui, halive⟩] at hstep
      exact nomatch hstep
    | false => trivial
  | _ => trivial

/-- The states that a step can lead to are harmless if and only if it is timely. -/
theorem Clean.forall_step_iff (h : s.Clean) :
    (∀ t, HandOver.step s a = some t → t.Harmless ∧ t.AnswersOwn) ↔ s.Timely a := by
  rcases hstep : HandOver.step s a with _ | t
  · exact iff_of_true (fun _ ht => nomatch ht) (h.timely_of_refused hstep)
  · have hcases := step_cases hstep
    have hinv := h.inv.step hcases
    constructor
    · intro hall
      have hloose := hinv.not_loose (hall t rfl).1
      exact (loose_step_iff h.loose h.inv.inCall hcases).1 hloose
    · rintro ha u hu
      obtain rfl := Option.some_inj.1 hu
      exact ⟨(h.step ha hstep).harmless, hinv.answersOwn⟩

theorem clean_start : Clean {} where
  inv := inv_start
  late := rfl
  loose := fun ⟨_, hreturned, _⟩ => nomatch hreturned

/-- The calls are those of requests that are posted. -/
def Posted (s : HandOver) : Prop := ∀ c ∈ s.calls, (parseRequest c.reqData).path ≠ "quit".toList

theorem Posted.modify (h : s.Posted) {k : Nat} {f : Call → Call}
    (hreq : ∀ c, (f c).reqData = c.reqData) (ht : t.calls = s.calls.modify k f) : t.Posted := by
  intro c hc
  rw [ht] at hc
  obtain ⟨j, hj⟩ := List.mem_iff_getElem?.1 hc
  rw [List.getElem?_modify] at hj
  obtain ⟨c', hc', rfl⟩ := Option.map_eq_some_iff.1 hj
  have hpath := h c' (List.mem_of_getElem? hc')
  split
  · rwa [hreq]
  · exact hpath

theorem Posted.step (h : s.Posted) (hstep : Step s a t) : t.Posted := by
  cases hstep with
  | receive buff =>
    rw [post]
    split
    · exact h
    · next hpath => exact List.forall_mem_append.2 ⟨h, List.forall_mem_singleton.2 hpath⟩
  | leave =>
    rw [leaveCall]
    split
    · exact h.modify (f := ({ · with returned := true })) (fun _ => rfl) rfl
    · exact h.modify (f := ({ · with returned := true })) (fun _ => rfl) rfl
  | @runTask handle k request _ _ _ =>
    rw [handleRequest]
    split
    · let writes := if s.handler then handle request else []
      exact h.modify (f := ({ · with answer := some (request, writes) })) (fun _ => rfl) rfl
    · exact h
  | @write k w _ _ =>
    exact h.modify (f := fun c => { c with response := c.response.write w }) (fun _ => rfl) rfl
  | _ => exact h

/-- What a run sends is what `handleRequestOnThread` makes of the request and of the answer that the
handler has given to it. -/
theorem sent_handleRequestOnThread {as : List Label} (hrun : step.run {} as = some s) {k : Nat}
    {data : Text} (hsent : (k, data) ∈ s.sent) : ∃ c writes, s.calls[k]? = some c ∧
      c.answer = some (parseRequest c.reqData, writes) ∧
      (handleRequestOnThread (fun _ => some (({} : HttpResponse).writeAll writes)) c.reqData).2 =
        some data := by
  have hinv : s.Inv ∧ s.Posted :=
    Machine.run_invariant (P := fun s => s.Inv ∧ s.Posted)
      (fun _ _ _ h hstep => ⟨h.1.step (step_cases hstep), h.2.step (step_cases hstep)⟩)
      ⟨inv_start, List.forall_mem_nil _⟩ hrun
  obtain ⟨c, writes, hc, hanswer, hdata⟩ := hinv.1.answersOwn k data hsent
  refine ⟨c, writes, hc, hanswer, ?_⟩
  rw [handleRequestOnThread, if_neg (hinv.2 c (List.mem_of_getElem? hc)), hdata]
  rfl

/-- **The hand-over is safe** in the runs whose steps are timely, and in no others. -/
theorem handOver_safe_iff (as : List Label) : Safe as ↔ step.Meets Timely {} as := by
  exact Machine.always_iff (fun _ _ _ h _ => h.step) (fun _ _ h _ => h.forall_step_iff) clean_start
    ⟨clean_start.harmless, clean_start.inv.answersOwn⟩

/-- Where the steps are timely, no response has been written to after its call had returned, and
each client is sent the answer to its own request. -/
theorem safe_of_timely {as : List Label} {s : HandOver} (htimely : step.Meets Timely {} as)
    (hrun : step.run {} as = some s) : s.late = [] ∧ s.AnswersOwn := by
  have hclean := Machine.run_invariant_of_meets (P := Clean) (fun _ _ _ h => h.step) clean_start
    htimely hrun
  exact ⟨hclean.harmless.late_eq_nil, hclean.inv.answersOwn⟩

/-- The wait is over before the UI thread comes to the task. -/
def slow : List Label :=
  [.setHandler true, .accept, .receive (some "GET /status HTTP/1.0\n\n".toList), .timeout,
    .leave, .runTask fun _ => [.setBody ['x']], .write]

theorem not_handOver_safe : ¬ ∀ as, Safe as := by
  intro h
  have hlate : (step.run {} slow).map late = some [0] := by decide +kernel
  obtain ⟨s, hrun, hs⟩ := Option.map_eq_some_iff.1 hlate
  have hnil := (h slow slow s (List.prefix_refl _) hrun).1.late_eq_nil
  exact nomatch hs.symm.trans hnil

end HandOver

end Dcfpe.Http
