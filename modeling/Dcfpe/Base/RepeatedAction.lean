import Dcfpe.Lib.Checked
import Dcfpe.Lib.Machine
import Mathlib.Data.List.Perm.Basic

/-!
# Repeated actions

A `RepeatedAction` posts a task that runs its action and posts the next one.  A task carries the
cookie it was posted with, and does nothing if `current_cookie_` is another one by then: so `Start`,
`Stop` and `Restart` get rid of the tasks that are scheduled.

A step is a call, the begin of a task up to the callback it makes, or what is left of it when that
returns; calls are made between tasks and by callbacks.  The tasks run in any order.
-/

set_option autoImplicit false

namespace Dcfpe.Base

namespace RepeatedAction

/-- A posted `DoAction`. -/
structure Scheduled where
  cookie : Int32
  delay : Int := 0
  deriving DecidableEq, Repr

inductive Callback where
  | action
  | finish
  deriving DecidableEq, Repr

inductive Call where
  | start (action : Nat) (delay interval : Int) (repeatedTime : Int32)
  | stop
  | restart (delay interval : Int) (repeatedTime : Int32)
  deriving DecidableEq, Repr

/-- A callback that is made. -/
inductive Event where
  | ran (action : Nat)
  | finished
  deriving DecidableEq, Repr

end RepeatedAction

/-- Actions are numbered, and times are in microseconds.  `callback` is the callback under way,
`changed` the last call since its begin that has changed the cookie, and `log` what has been called;
they are not in the code. -/
structure RepeatedAction where
  hasHost : Bool
  isRunning : Bool := false
  currentCookie : Int32 := 0
  action : Nat := 0
  repeatedTime : Int32 := -1
  interval : Int := 0
  scheduled : List RepeatedAction.Scheduled := []
  callback : Option RepeatedAction.Callback := none
  changed : Option RepeatedAction.Call := none
  log : List RepeatedAction.Event := []
  deriving DecidableEq, Repr

namespace RepeatedAction

/-- The constructor. -/
def create (hasHost : Bool) : RepeatedAction := { hasHost }

/-- `PostTask`, or `PostDelayedTask` if there is a delay. -/
def post (delay : Int) (s : RepeatedAction) : RepeatedAction :=
  { s with scheduled := s.scheduled ++ [{ cookie := s.currentCookie, delay }] }

def start (action : Nat) (delay interval : Int) (repeatedTime : Int32) (s : RepeatedAction) :
    RepeatedAction :=
  let delay := if delay < 0 then 0 else delay
  post delay { s with
    isRunning := true
    currentCookie := s.currentCookie + 1
    action := action
    repeatedTime := repeatedTime
    interval := interval }

def stop (s : RepeatedAction) : RepeatedAction :=
  { s with
    isRunning := false
    currentCookie := s.currentCookie + 1 }

def restart (delay interval : Int) (repeatedTime : Int32) (s : RepeatedAction) : RepeatedAction :=
  let delay := if delay < 0 then 0 else delay
  if !s.isRunning then s
  else
    post delay { s with
      currentCookie := s.currentCookie + 1
      repeatedTime := repeatedTime
      interval := interval }

/-- The call changes `current_cookie_`: all do, but for a `Restart` that fails. -/
def Changes (s : RepeatedAction) : Call → Bool
  | .restart _ _ _ => s.isRunning
  | _ => true

def call (c : Call) (s : RepeatedAction) : RepeatedAction :=
  let t :=
    match c with
    | .start action delay interval repeatedTime => s.start action delay interval repeatedTime
    | .stop => s.stop
    | .restart delay interval repeatedTime => s.restart delay interval repeatedTime
  if s.Changes c then { t with changed := some c } else t

/-- `DoActionImpl` up to the callback. -/
def doActionImpl (cookie : Int32) (s : RepeatedAction) : RepeatedAction :=
  if s.isRunning ∧ cookie = s.currentCookie then
    if s.repeatedTime = 0 then
      if s.hasHost then
        { s with callback := some .finish, changed := none, log := s.log ++ [.finished] }
      else s
    else
      let repeatedTime := if s.repeatedTime < 0 then s.repeatedTime else s.repeatedTime - 1
      { s with
        repeatedTime
        callback := some .action
        changed := none
        log := s.log ++ [.ran s.action] }
  else s

/-- `DoActionImpl` after the callback. -/
def callbackReturns (callback : Callback) (s : RepeatedAction) : RepeatedAction :=
  match callback with
  | .action => post s.interval { s with callback := none }
  | .finish => { s with callback := none }

/-- A task is taken out of the list. -/
def take (i : Nat) (s : RepeatedAction) : RepeatedAction :=
  { s with scheduled := s.scheduled.eraseIdx i }

inductive Action where
  | call (c : Call)
  /-- The task at a place in the list begins. -/
  | task (i : Nat)
  | callbackReturns
  deriving DecidableEq, Repr

def step : Machine RepeatedAction Action
  | s, .call c => some (s.call c)
  | s, .task i =>
    match s.callback, s.scheduled[i]? with
    | none, some task =>
      some ((s.take i).doActionImpl task.cookie)
    | _, _ => none
  | s, .callbackReturns => s.callback.map fun callback => s.callbackReturns callback

/-- How many of the scheduled tasks have a cookie. -/
def count (cookie : Int32) (s : RepeatedAction) : Nat :=
  s.scheduled.countP fun task => task.cookie = cookie

/-! ## Counting tasks -/

section Count

variable {s : RepeatedAction} {c : Int32}

theorem count_post (delay : Int) (s : RepeatedAction) (c : Int32) :
    (post delay s).count c = s.count c + if s.currentCookie = c then 1 else 0 := by
  rw [count, post, List.countP_append, count, List.countP_singleton]
  simp

/-- A task that is taken out. -/
theorem count_take {i : Nat} {task : Scheduled} (h : s.scheduled[i]? = some task) (c : Int32) :
    s.count c = (s.take i).count c + if task.cookie = c then 1 else 0 := by
  obtain ⟨hi, rfl⟩ := List.getElem?_eq_some_iff.1 h
  rw [count, ← (List.getElem_cons_eraseIdx_perm hi).countP_eq, List.countP_cons]
  simp [count, take]

end Count

/-- What `DoActionImpl` does before a callback: nothing, or it calls the host or the action. -/
theorem doActionImpl_cases (cookie : Int32) (s : RepeatedAction) :
    (¬ (s.isRunning ∧ cookie = s.currentCookie ∧ (s.repeatedTime = 0 → s.hasHost)) ∧
      doActionImpl cookie s = s) ∨
    (s.isRunning ∧ cookie = s.currentCookie ∧ s.repeatedTime = 0 ∧ s.hasHost ∧
      doActionImpl cookie s =
        { s with callback := some .finish, changed := none, log := s.log ++ [.finished] }) ∨
    (s.isRunning ∧ cookie = s.currentCookie ∧ s.repeatedTime ≠ 0 ∧
      doActionImpl cookie s =
        { s with
          repeatedTime := if s.repeatedTime < 0 then s.repeatedTime else s.repeatedTime - 1
          callback := some .action
          changed := none
          log := s.log ++ [.ran s.action] }) := by
  rw [doActionImpl]
  split
  · next h =>
    split
    · next hzero =>
      split
      · next hhost => exact .inr (.inl ⟨h.1, h.2, hzero, hhost, rfl⟩)
      · next hhost => exact .inl ⟨fun hall => hhost (hall.2.2 hzero), rfl⟩
    · next hzero => exact .inr (.inr ⟨h.1, h.2, hzero, rfl⟩)
  · next h => exact .inl ⟨fun hall => h ⟨hall.1, hall.2.1⟩, rfl⟩

theorem scheduled_doActionImpl (cookie : Int32) (s : RepeatedAction) :
    (doActionImpl cookie s).scheduled = s.scheduled ∧
      (doActionImpl cookie s).currentCookie = s.currentCookie := by
  obtain ⟨-, h⟩ | ⟨-, -, -, -, h⟩ | ⟨-, -, -, h⟩ := doActionImpl_cases cookie s <;> rw [h] <;>
    exact ⟨rfl, rfl⟩

/-- A task and the count of each cookie. -/
theorem count_task {i : Nat} {task : Scheduled} {s : RepeatedAction}
    (h : s.scheduled[i]? = some task) (c : Int32) :
    s.count c = ((s.take i).doActionImpl task.cookie).count c +
      if task.cookie = c then 1 else 0 := by
  rw [count_take h, count, count, (scheduled_doActionImpl _ _).1]

/-! ## The condition -/

/-- A step that cannot leave two tasks with the current cookie.  `Start`, and a `Restart` that does
not fail, take a cookie that no scheduled task has; when the action returns, neither of them is the
last call of it that has changed the cookie, and after a `Stop` no scheduled task has the cookie. -/
def Once (s : RepeatedAction) : Action → Prop
  | .call .stop => True
  | .call c => s.Changes c → s.count (s.currentCookie + 1) = 0
  | .task _ => True
  | .callbackReturns =>
    s.callback = some .action →
      match s.changed with
      | none => True
      | some .stop => s.count s.currentCookie = 0
      | some _ => False

/-- No two scheduled tasks have one cookie; while the action runs, there is one with the current
cookie only if a call has posted it. -/
structure Inv (s : RepeatedAction) : Prop where
  distinct : ∀ c, s.count c ≤ 1
  own : s.callback = some .action → s.changed = none → s.count s.currentCookie = 0
  posted : s.callback = some .action → ∀ c, s.changed = some c → c ≠ .stop →
    s.count s.currentCookie = 1

theorem inv_create (hasHost : Bool) : (create hasHost).Inv :=
  ⟨fun _ => Nat.zero_le 1, (nomatch ·), (nomatch ·)⟩

variable {s t : RepeatedAction}

theorem restart_eq (hrunning : s.isRunning = true) (delay interval : Int) (repeatedTime : Int32) :
    s.restart delay interval repeatedTime =
      post (if delay < 0 then 0 else delay) { s with
        currentCookie := s.currentCookie + 1
        repeatedTime := repeatedTime
        interval := interval } := by
  rw [restart, hrunning]
  rfl

/-- A call that posts a task. -/
theorem call_posts {c : Call} (hc : c ≠ .stop) (hchanges : s.Changes c) :
    (∀ k, (s.call c).count k = s.count k + if s.currentCookie + 1 = k then 1 else 0) ∧
      (s.call c).currentCookie = s.currentCookie + 1 ∧ (s.call c).changed = some c ∧
      (s.call c).callback = s.callback ∧ (s.call c).log = s.log := by
  cases c with
  | start action delay interval repeatedTime =>
    exact ⟨fun k => count_post _ _ k, rfl, rfl, rfl, rfl⟩
  | stop => exact absurd rfl hc
  | restart delay interval repeatedTime =>
    have hrunning : s.isRunning = true := hchanges
    have hcall : s.call (.restart delay interval repeatedTime) =
        { s.restart delay interval repeatedTime with
          changed := some (.restart delay interval repeatedTime) } := if_pos hchanges
    rw [hcall, restart_eq hrunning]
    exact ⟨fun k => count_post _ _ k, rfl, rfl, rfl, rfl⟩

/-- The call that changes nothing. -/
theorem call_fails {c : Call} (hchanges : ¬ s.Changes c) : s.call c = s := by
  cases c with
  | start | stop => exact (hchanges rfl).elim
  | restart delay interval repeatedTime =>
    have hrunning : s.isRunning = false := Bool.eq_false_iff.2 hchanges
    rw [call, if_neg hchanges]
    simp only [restart, hrunning, Bool.not_false, if_true]

theorem Once.fresh {c : Call} (honce : s.Once (.call c)) (hc : c ≠ .stop)
    (hchanges : s.Changes c) : s.count (s.currentCookie + 1) = 0 := by
  cases c with
  | stop => exact absurd rfl hc
  | start | restart => exact honce hchanges

theorem inv_call {c : Call} (h : s.Inv) (honce : s.Once (.call c)) : (s.call c).Inv := by
  by_cases hchanges : s.Changes c
  · by_cases hc : c = .stop
    · subst hc
      exact ⟨h.distinct, fun _ => (nomatch ·), fun _ _ hsome hne =>
        absurd (Option.some_inj.1 hsome).symm hne⟩
    · obtain ⟨hcount, hcookie, hchanged, -⟩ := call_posts hc hchanges
      have hfresh := Once.fresh honce hc hchanges
      refine ⟨fun k => ?_, fun _ hnone => ?_, fun _ _ _ _ => ?_⟩
      · rw [hcount]
        split
        · next hk => exact hk ▸ Nat.le_of_eq (congrArg (· + 1) hfresh)
        · exact h.distinct k
      · rw [hchanged] at hnone
        exact nomatch hnone
      · rw [hcount, hcookie, if_pos rfl, hfresh]
  · rw [call_fails hchanges]
    exact h

theorem inv_task {task : Scheduled} {i : Nat} (h : s.Inv) (hcallback : s.callback = none)
    (htask : s.scheduled[i]? = some task) :
    ((s.take i).doActionImpl task.cookie).Inv := by
  have hcount := count_task htask
  refine ⟨fun c => ?_, ?_, ?_⟩
  · have := hcount c
    have := h.distinct c
    omega
  · intro hact _
    have hcurrent := hcount s.currentCookie
    have hle := h.distinct s.currentCookie
    rw [show ((s.take i).doActionImpl task.cookie).currentCookie = s.currentCookie from
      (scheduled_doActionImpl _ _).2]
    have htaken : task.cookie = s.currentCookie := by
      obtain ⟨-, heq⟩ | ⟨-, htaken, -⟩ | ⟨-, htaken, -⟩ :=
        doActionImpl_cases task.cookie (s.take i)
      · rw [heq] at hact
        exact nomatch hcallback.symm.trans hact
      · exact htaken
      · exact htaken
    rw [if_pos htaken] at hcurrent
    omega
  · intro hact c hchanged
    obtain ⟨-, heq⟩ | ⟨-, -, -, -, heq⟩ | ⟨-, -, -, heq⟩ :=
      doActionImpl_cases task.cookie (s.take i)
    · rw [heq] at hact
      exact nomatch hcallback.symm.trans hact
    · rw [heq] at hchanged
      exact nomatch hchanged
    · rw [heq] at hchanged
      exact nomatch hchanged

theorem inv_callbackReturns {callback : Callback} (h : s.Inv)
    (hcallback : s.callback = some callback) (honce : s.Once .callbackReturns) :
    (s.callbackReturns callback).Inv := by
  cases callback with
  | finish => exact ⟨h.distinct, (nomatch ·), (nomatch ·)⟩
  | action =>
    have hnone : s.count s.currentCookie = 0 := by
      have := honce hcallback
      cases hchanged : s.changed with
      | none => exact h.own hcallback hchanged
      | some c => 
        rw [hchanged] at this
        cases c with
        | stop => exact this
        | start | restart => exact this.elim
    refine ⟨fun c => ?_, (nomatch ·), (nomatch ·)⟩
    rw [callbackReturns, count_post]
    dsimp only
    split
    · next hc =>
      rw [← hc]
      have : count s.currentCookie { s with callback := none } = 0 := hnone
      omega
    · exact h.distinct c

theorem inv_step {a : Action} (h : s.Inv) (honce : s.Once a) (hstep : step s a = some t) :
    t.Inv := by
  cases a with
  | call c =>
    rw [step, Option.some_inj] at hstep
    exact hstep ▸ inv_call h honce
  | task i =>
    rw [step] at hstep
    split at hstep
    · next task hcallback htask =>
      rw [Option.some_inj] at hstep
      exact hstep ▸ inv_task h hcallback htask
    · exact nomatch hstep
  | callbackReturns =>
    obtain ⟨callback, hcallback, rfl⟩ := Option.map_eq_some_iff.1 hstep
    exact inv_callbackReturns h hcallback honce

/-- Conversely, a step that leaves one task with the current cookie is such a step. -/
theorem once_of_count {a : Action} (h : s.Inv)
    (hcount : ∀ t, step s a = some t → t.count t.currentCookie ≤ 1) : s.Once a := by
  cases a with
  | call c =>
    by_cases hc : c = .stop
    · subst hc
      trivial
    · have hfresh : s.Changes c → s.count (s.currentCookie + 1) = 0 := by
        intro hchanges
        obtain ⟨hposts, hcookie, -⟩ := call_posts hc hchanges
        have hle := hcount _ rfl
        rw [hcookie, hposts, if_pos rfl] at hle
        omega
      cases c with
      | stop => exact absurd rfl hc
      | start | restart => exact hfresh
  | task i => trivial
  | callbackReturns =>
    intro hcallback
    have hle := hcount (s.callbackReturns .action) (by rw [step, hcallback]; rfl)
    have hpost := count_post s.interval { s with callback := none } s.currentCookie
    rw [if_pos rfl] at hpost
    have hnone : s.count s.currentCookie = 0 :=
      Nat.le_zero.1 (Nat.le_of_succ_le_succ (Nat.le_trans (Nat.le_of_eq hpost.symm) hle))
    cases hchanged : s.changed with
    | none => trivial
    | some c =>
      by_cases hc : c = .stop
      · subst hc
        exact hnone
      · have := h.posted hcallback c hchanged hc
        omega

/-! ## What a start leads to -/

/-- What has been called after the action has run `k` times. -/
def runs (t : RepeatedAction) (k : Nat) : List Event := t.log ++ List.replicate k (.ran t.action)

/-- What has been called in the end: the host too, if there is one. -/
def fired (t : RepeatedAction) (n : Nat) : List Event :=
  t.runs n ++ if t.hasHost then [.finished] else []

/-- What `u` has kept of `t`, the state after a start. -/
structure Kept (t u : RepeatedAction) : Prop where
  isRunning : u.isRunning
  currentCookie : u.currentCookie = t.currentCookie
  action : u.action = t.action
  hasHost : u.hasHost = t.hasHost

/-- How far the object has come since a start with `repeated_time_` `n`, if there have been no other
calls: it has run the action `k` times, and has a task for the rest or is about to post one; or it
is done. -/
inductive Stage (t : RepeatedAction) (n : Nat) (u : RepeatedAction) : Prop where
  | waiting {k : Nat} (hlog : u.log = t.runs k) (hrest : (k : Int) + u.repeatedTime.toInt = n)
      (hcount : u.count u.currentCookie = 1) (hnonneg : 0 ≤ u.repeatedTime.toInt)
      (hcallback : u.callback = some .action → u.changed ≠ none ∧ u.changed ≠ some .stop)
  | acting {k : Nat} (hlog : u.log = t.runs k) (hrest : (k : Int) + u.repeatedTime.toInt = n)
      (hcount : u.count u.currentCookie = 0) (hnonneg : 0 ≤ u.repeatedTime.toInt)
      (hcallback : u.callback = some .action)
  | done (hlog : u.log = t.fired n) (hcount : u.count u.currentCookie = 0)
      (hcallback : u.callback ≠ some .action)

/-- The call is a `Start`, or a `Restart` that does not fail, with this `repeated_time`. -/
def Starts (s : RepeatedAction) (n : Int32) : Call → Prop
  | .start _ _ _ repeatedTime => repeatedTime = n
  | .restart _ _ repeatedTime => s.isRunning ∧ repeatedTime = n
  | .stop => False

/-- What such a call sets. -/
theorem call_starts {c : Call} {n : Int32} (hstarts : s.Starts n c) :
    c ≠ .stop ∧ s.Changes c ∧ (s.call c).isRunning ∧ (s.call c).repeatedTime = n := by
  cases c with
  | start action delay interval repeatedTime => exact ⟨nofun, rfl, rfl, hstarts⟩
  | stop => exact hstarts.elim
  | restart delay interval repeatedTime =>
    obtain ⟨hrunning, htime⟩ := hstarts
    have hcall : s.call (.restart delay interval repeatedTime) =
        { s.restart delay interval repeatedTime with
          changed := some (.restart delay interval repeatedTime) } := if_pos hrunning
    rw [hcall, restart_eq hrunning]
    exact ⟨nofun, hrunning, hrunning, htime⟩

theorem stage_call {c : Call} {n : Int32} (honce : s.Once (.call c)) (hstarts : s.Starts n c)
    (hn : 0 ≤ n.toInt) :
    Kept (s.call c) (s.call c) ∧ Stage (s.call c) n.toInt.toNat (s.call c) := by
  obtain ⟨hc, hchanges, hrunning, htime⟩ := call_starts hstarts
  obtain ⟨hcount, hcookie, hchanged, -⟩ := call_posts hc hchanges
  have hfresh := Once.fresh honce hc hchanges
  refine ⟨⟨hrunning, rfl, rfl, rfl⟩, .waiting (k := 0) (List.append_nil _).symm ?_ ?_ ?_ ?_⟩
  · rw [htime]
    omega
  · rw [hcookie, hcount, if_pos rfl, hfresh]
  · rw [htime]
    exact hn
  · intro _
    rw [hchanged]
    exact ⟨nofun, fun h => hc (Option.some_inj.1 h)⟩

theorem Kept.task {u : RepeatedAction} (h : Kept t u) (i : Nat) (cookie : Int32) :
    Kept t ((u.take i).doActionImpl cookie) := by
  obtain ⟨-, heq⟩ | ⟨-, -, -, -, heq⟩ | ⟨-, -, -, heq⟩ := doActionImpl_cases cookie (u.take i) <;>
    rw [heq] <;> exact ⟨h.isRunning, h.currentCookie, h.action, h.hasHost⟩

theorem runs_succ (t : RepeatedAction) (k : Nat) :
    t.runs (k + 1) = t.runs k ++ [.ran t.action] := by
  rw [runs, runs, List.replicate_succ', List.append_assoc]

/-- The one task of an object that is waiting: the action is run if it is to be run again, and else
that was all. -/
theorem Stage.waiting_task {n k i : Nat} {cookie : Int32} {u : RepeatedAction} (hkept : Kept t u)
    (hlog : u.log = t.runs k) (hrest : (k : Int) + u.repeatedTime.toInt = n)
    (hnonneg : 0 ≤ u.repeatedTime.toInt) (hcallback : u.callback = none)
    (hcookie : cookie = u.currentCookie) (hcount : (u.take i).count u.currentCookie = 0) :
    Stage t n ((u.take i).doActionImpl cookie) := by
  have hzero : u.repeatedTime = 0 → k = n := by
    intro h
    rw [h, Int32.toInt_zero] at hrest
    omega
  obtain ⟨hnot, heq⟩ | ⟨-, -, htime, hhost, heq⟩ | ⟨-, -, htime, heq⟩ :=
    doActionImpl_cases cookie (u.take i) <;> rw [heq]
  · have htime : u.repeatedTime = 0 ∧ ¬ u.hasHost := by
      by_contra h
      exact hnot ⟨hkept.isRunning, hcookie, fun h0 => by_contra fun hhost => h ⟨h0, hhost⟩⟩
    refine .done ?_ hcount (by rw [show (u.take i).callback = none from hcallback]; exact nofun)
    rw [fired, ← hkept.hasHost, if_neg htime.2, List.append_nil, ← hzero htime.1]
    exact hlog
  · refine .done ?_ hcount nofun
    rw [fired, ← hkept.hasHost, if_pos (show u.hasHost from hhost), ← hzero htime, ← hlog]
    rfl
  · have hne : u.repeatedTime.toInt ≠ 0 := fun h =>
      htime (Int32.toInt_inj.1 (h.trans Int32.toInt_zero.symm))
    have hlt : ¬ u.repeatedTime < 0 := by
      rw [Int32.lt_iff_toInt_lt, Int32.toInt_zero]
      omega
    have hpred := Checked.toInt_sub_one (show 0 < u.repeatedTime.toInt by omega)
    refine .acting (k := k + 1) ?_ ?_ hcount ?_ rfl
    · rw [runs_succ, ← hkept.action, ← hlog]
      rfl
    · show ((k + 1 : Nat) : Int) + (if u.repeatedTime < 0 then _ else _ : Int32).toInt = n
      rw [if_neg hlt]
      show ((k + 1 : Nat) : Int) + (u.repeatedTime - 1).toInt = n
      omega
    · show 0 ≤ (if u.repeatedTime < 0 then _ else _ : Int32).toInt
      rw [if_neg hlt]
      show 0 ≤ (u.repeatedTime - 1).toInt
      omega

/-- A task with another cookie does nothing. -/
theorem doActionImpl_stale {cookie : Int32} {u : RepeatedAction} (h : cookie ≠ u.currentCookie) :
    u.doActionImpl cookie = u := by
  obtain ⟨-, heq⟩ | ⟨-, htaken, -⟩ | ⟨-, htaken, -⟩ := doActionImpl_cases cookie u
  · exact heq
  · exact absurd htaken h
  · exact absurd htaken h

theorem Stage.task {n : Nat} {u : RepeatedAction} {i : Nat} {task : Scheduled} (hkept : Kept t u)
    (hstage : Stage t n u) (hcallback : u.callback = none) (htask : u.scheduled[i]? = some task) :
    Stage t n ((u.take i).doActionImpl task.cookie) := by
  have htake := count_take htask u.currentCookie
  by_cases hcookie : task.cookie = u.currentCookie
  · rw [if_pos hcookie] at htake
    cases hstage with
    | waiting hlog hrest hcount hnonneg _ =>
      exact waiting_task hkept hlog hrest hnonneg hcallback hcookie (by omega)
    | acting _ _ _ _ hact => exact nomatch hcallback.symm.trans hact
    | done _ hcount _ => omega
  · rw [if_neg hcookie, Nat.add_zero] at htake
    rw [doActionImpl_stale (show task.cookie ≠ (u.take i).currentCookie from hcookie)]
    cases hstage with
    | waiting hlog hrest hcount hnonneg hcall =>
      exact .waiting hlog hrest (htake.symm.trans hcount) hnonneg hcall
    | acting _ _ _ _ hact => exact nomatch hcallback.symm.trans hact
    | done hlog hcount hne => exact .done hlog (htake.symm.trans hcount) hne

theorem Stage.callbackReturns {n : Nat} {u : RepeatedAction} {callback : Callback}
    (hkept : Kept t u) (hstage : Stage t n u) (hcallback : u.callback = some callback)
    (honce : u.Once .callbackReturns) :
    Kept t (u.callbackReturns callback) ∧ Stage t n (u.callbackReturns callback) := by
  cases callback with
  | finish =>
    refine ⟨⟨hkept.isRunning, hkept.currentCookie, hkept.action, hkept.hasHost⟩, ?_⟩
    cases hstage with
    | waiting hlog hrest hcount hnonneg _ =>
      exact .waiting hlog hrest hcount hnonneg (nomatch ·)
    | acting _ _ _ _ hact => exact nomatch hcallback.symm.trans hact
    | done hlog hcount _ => exact .done hlog hcount nofun
  | action =>
    refine ⟨⟨hkept.isRunning, hkept.currentCookie, hkept.action, hkept.hasHost⟩, ?_⟩
    cases hstage with
    | waiting hlog hrest hcount hnonneg hcall =>
      -- the call that has posted the task is the last of this action
      obtain ⟨hnone, hstop⟩ := hcall hcallback
      have := honce hcallback
      cases hchanged : u.changed with
      | none => exact absurd hchanged hnone
      | some c =>
        rw [hchanged] at this
        cases c with
        | stop => exact absurd hchanged hstop
        | start | restart => exact this.elim
    | acting hlog hrest hcount hnonneg _ =>
      refine .waiting hlog hrest ?_ hnonneg (nomatch ·)
      have hpost := count_post u.interval { u with callback := none } u.currentCookie
      rw [if_pos rfl] at hpost
      exact hpost.trans (congrArg (· + 1) hcount)
    | done _ _ hne => exact absurd hcallback hne

/-! ## Runs -/

theorem stage_run {n : Nat} {u v : RepeatedAction} {as : List Action} (hkept : Kept t u)
    (hstage : Stage t n u) (hquiet : ∀ a ∈ as, ∀ c, a ≠ .call c) (honce : step.Meets Once u as)
    (hrun : step.run u as = some v) : Kept t v ∧ Stage t n v := by
  have hmeets := Machine.Meets.and honce (Machine.meets_labels hquiet u)
  refine Machine.run_invariant_of_meets (P := fun u => Kept t u ∧ Stage t n u) ?_ ⟨hkept, hstage⟩
    hmeets hrun
  rintro u a v ⟨hkept, hstage⟩ ⟨honce, hquiet⟩ hstep
  cases a with
  | call c => exact absurd rfl (hquiet c)
  | task i =>
    rw [step] at hstep
    split at hstep
    · next task hcallback htask =>
      rw [Option.some_inj] at hstep
      exact hstep ▸ ⟨hkept.task i task.cookie, hstage.task hkept hcallback htask⟩
    · exact nomatch hstep
  | callbackReturns =>
    obtain ⟨callback, hcallback, rfl⟩ := Option.map_eq_some_iff.1 hstep
    exact hstage.callbackReturns hkept hcallback honce

/-- An object that is not running calls nothing until it is started. -/
theorem silent_run {as : List Action} (hrunning : ¬ s.isRunning)
    (hquiet : ∀ a ∈ as, ∀ action delay interval n, a ≠ .call (.start action delay interval n))
    (hrun : step.run s as = some t) : t.log = s.log := by
  refine (Machine.run_invariant_of_meets (P := fun u => ¬ u.isRunning ∧ u.log = s.log) ?_
    ⟨hrunning, rfl⟩ (Machine.meets_labels hquiet s) hrun).2
  rintro u a v ⟨hrunning, hlog⟩ hquiet hstep
  rw [← hlog]
  cases a with
  | call c =>
    rw [step, Option.some_inj] at hstep
    subst hstep
    cases c with
    | start action delay interval n => exact absurd rfl (hquiet action delay interval n)
    | stop => exact ⟨nofun, rfl⟩
    | restart delay interval n =>
      rw [call_fails (c := .restart delay interval n) hrunning]
      exact ⟨hrunning, rfl⟩
  | task i =>
    rw [step] at hstep
    split at hstep
    · next task hcallback htask =>
      rw [Option.some_inj] at hstep
      obtain ⟨-, heq⟩ | ⟨h, -⟩ | ⟨h, -⟩ := doActionImpl_cases task.cookie (u.take i)
      · rw [heq] at hstep
        exact hstep ▸ ⟨hrunning, rfl⟩
      · exact absurd h hrunning
      · exact absurd h hrunning
    · exact nomatch hstep
  | callbackReturns =>
    obtain ⟨callback, -, rfl⟩ := Option.map_eq_some_iff.1 hstep
    cases callback <;> exact ⟨hrunning, rfl⟩

/-- What is seen of the object in `u`, after a start that led to `t` and no other calls. -/
structure Fires (t : RepeatedAction) (n : Nat) (u : RepeatedAction) : Prop where
  /-- The action has been run, `n` times at most, and then the host has been called. -/
  sofar : (∃ k ≤ n, u.log = t.runs k) ∨ u.log = t.fired n
  /-- All that has happened if there is nothing to come. -/
  inTheEnd : u.callback = none → u.count u.currentCookie = 0 → u.log = t.fired n
  /-- What is to come makes it happen. -/
  goesOn : u.callback = none → ∀ i task, u.scheduled[i]? = some task →
    task.cookie = u.currentCookie →
    ∃ v, step u (.task i) = some v ∧ (v.log ≠ u.log ∨ v.log = t.fired n)

theorem Stage.fires {n : Nat} {u : RepeatedAction} (hkept : Kept t u) (h : Stage t n u) :
    Fires t n u := by
  refine ⟨?_, fun hcallback hnone => ?_, fun hcallback i task htask hcookie => ?_⟩
  · cases h with
    | waiting hlog hrest _ hnonneg _ => exact .inl ⟨_, by omega, hlog⟩
    | acting hlog hrest _ hnonneg _ => exact .inl ⟨_, by omega, hlog⟩
    | done hlog _ _ => exact .inr hlog
  · cases h with
    | waiting _ _ hcount _ _ => omega
    | acting _ _ _ _ hact => exact nomatch hcallback.symm.trans hact
    | done hlog _ _ => exact hlog
  · refine ⟨(u.take i).doActionImpl task.cookie, by rw [step, hcallback, htask], ?_⟩
    have htake := count_take htask u.currentCookie
    rw [if_pos hcookie] at htake
    have hle : u.count u.currentCookie ≤ 1 := by
      cases h <;> omega
    obtain ⟨-, heq⟩ | ⟨-, -, -, -, heq⟩ | ⟨-, -, -, heq⟩ :=
      doActionImpl_cases task.cookie (u.take i)
    · -- only an object without a host does nothing, and then that was all
      have hstage := h.task hkept hcallback htask
      rw [heq] at hstage ⊢
      cases hstage with
      | waiting _ _ hcount _ _ =>
        have : (u.take i).count u.currentCookie = 1 := hcount
        omega
      | acting _ _ _ _ hact => exact nomatch hcallback.symm.trans hact
      | done hlog _ _ => exact .inr hlog
    · left
      rw [heq]
      exact fun h => absurd (List.append_right_eq_self.1 h) (List.cons_ne_nil _ _)
    · left
      rw [heq]
      exact fun h => absurd (List.append_right_eq_self.1 h) (List.cons_ne_nil _ _)

/-- What is asked of a run of the object. -/
structure FiresAsAsked (hasHost : Bool) (as : List Action) : Prop where
  once : ∀ pre s, pre <+: as → step.run (create hasHost) pre = some s →
    s.count s.currentCookie ≤ 1
  /-- A `Start` or `Restart` that is not followed by another call. -/
  fires : ∀ {pre mid : List Action} {c : Call} {n : Int32} {s u : RepeatedAction},
    pre ++ .call c :: mid <+: as → step.run (create hasHost) pre = some s → s.Starts n c →
    0 ≤ n.toInt → (∀ a ∈ mid, ∀ c', a ≠ .call c') → step.run (s.call c) mid = some u →
    Fires (s.call c) n.toInt.toNat u
  /-- A `Stop` that is not followed by a `Start`. -/
  silent : ∀ {pre mid : List Action} {s u : RepeatedAction},
    pre ++ .call .stop :: mid <+: as → step.run (create hasHost) pre = some s →
    (∀ a ∈ mid, ∀ action delay interval n, a ≠ .call (.start action delay interval n)) →
    step.run (s.call .stop) mid = some u → u.log = s.log

/-- **The runs in which a repeated action fires as asked** are those in which no step can leave two
tasks with the current cookie. -/
theorem firesAsAsked_iff (hasHost : Bool) (as : List Action) :
    FiresAsAsked hasHost as ↔ step.Meets Once (create hasHost) as := by
  have hcongr : step.Meets (fun s a => ∀ t, step s a = some t → t.count t.currentCookie ≤ 1)
      (create hasHost) as ↔ step.Meets Once (create hasHost) as :=
    Machine.meets_congr (P := Inv)
      (fun s a t hs ha hstep => inv_step hs (once_of_count hs ha) hstep)
      (fun s a hs => ⟨once_of_count hs, fun ha t hstep =>
        (inv_step hs ha hstep).distinct t.currentCookie⟩) (inv_create hasHost)
  constructor
  · intro h
    exact hcongr.1 (Machine.forall_prefix_iff.1 h.once).2
  · intro h
    refine ⟨Machine.forall_prefix_iff.2 ⟨Nat.zero_le 1, hcongr.2 h⟩, ?_, ?_⟩
    · rintro pre mid c n s u ⟨rest, rfl⟩ hpre hstarts hn hquiet hrun
      rw [List.append_assoc, Machine.meets_append hpre] at h
      obtain ⟨honce, hmid⟩ := h.2
      replace hmid : step.Meets Once (s.call c) (mid ++ rest) := hmid (s.call c) rfl
      rw [Machine.meets_append hrun] at hmid
      obtain ⟨hkept, hstage⟩ := stage_call honce hstarts hn
      obtain ⟨hkept, hstage⟩ := stage_run hkept hstage hquiet hmid.1 hrun
      exact hstage.fires hkept
    · intro pre mid s u _ _ hquiet hrun
      exact silent_run (s := s.call .stop) nofun hquiet hrun

/-- Two times, and then the host. -/
example : (step.run (create true) [.call (.start 0 0 1000 2), .task 0, .callbackReturns, .task 0,
    .callbackReturns, .task 0, .callbackReturns]).map log = some [.ran 0, .ran 0, .finished] := by
  decide

/-- The action starts the object it is run by. -/
def startedInside : List Action :=
  [.call (.start 0 0 1000 1), .task 0, .call (.start 0 1000 1000 1), .callbackReturns]

/-- `Start` posts a task, and so does the return of the action, with the cookie `Start` has set. -/
theorem not_firesAsAsked : ¬ ∀ (hasHost : Bool) (as : List Action), FiresAsAsked hasHost as := by
  intro h
  have honce := (h true startedInside).once startedInside _ (List.prefix_refl _) rfl
  exact absurd honce (by decide)

end RepeatedAction

end Dcfpe.Base
