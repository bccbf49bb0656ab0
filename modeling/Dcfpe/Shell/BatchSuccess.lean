import Dcfpe.Shell.BatchExecuteShell
import Dcfpe.Shell.Successes
import Mathlib.Data.List.Nodup
import Mathlib.Data.List.Count

/-!
# When a batch succeeds

The host of a batch shell is told of a success at the end of the list, at an `exit` or `q` line, and
when a line is refused.  `BatchWatch` keeps, beside a run, for which line each call was and which
lines have been reported with `SUCCEED`; `success_iff` says when success means that all of them
have.

At the first two places the shell has counted: it runs one line more than it has been told of
successes, so all the lines before have been reported, unless one of them twice.  At the third it
has not.
-/

set_option autoImplicit false

namespace Dcfpe.Rs

/-! ## The watched shell -/

/-- A run, and what its calls and tasks are about. -/
structure BatchWatch where
  run : BatchRun
  /-- For each call of `executeCommandRemotely` that returned `true`, the index of its line. -/
  accepted : List Nat := []
  /-- For each `SUCCEED` that is posted, the line it is about. -/
  posted : List Nat := []
  /-- The lines `onCommandStatusChanged` was told `SUCCEED` for. -/
  succeeded : List Nat := []

namespace BatchWatch

/-- What the deeds of a call for line `i` post. -/
def successes (deeds : List Deed) (i : Nat) : List Nat :=
  List.replicate ((Session.notices deeds).count .succeed) i

def hear (w : BatchWatch) (newStatus : ServerStatus) : BatchWatch :=
  if newStatus = .succeed then
    { w with posted := w.posted.tail, succeeded := w.succeeded ++ w.posted.head?.toList }
  else w

def submit (files : Files) (w : BatchWatch) : BatchWatch :=
  match w.run.cmdLines[w.run.nextCommandIndex]? with
  | some cmd =>
    match w.run.session.call files cmd with
    | some (_, deeds) =>
      { w with
        accepted := w.accepted ++ [w.run.nextCommandIndex]
        posted := w.posted ++ successes deeds w.run.nextCommandIndex }
    | none => w
  | none => w

def note (w : BatchWatch) : BatchRun.Action → BatchWatch
  | .event e =>
    match w.run.session.event e, e.call with
    | some (_, deeds), some k =>
      { w with posted := w.posted ++ w.accepted[k]?.toList.flatMap (successes deeds) }
    | _, _ => w
  | .task files =>
    match w.run.tasks with
    | .notify newStatus :: _ => w.hear newStatus
    | .runNextCommand :: _ => w.submit files
    | _ => w
  | _ => w

def step : Machine BatchWatch BatchRun.Action := fun w a =>
  (BatchRun.step w.run a).map fun run => { w.note a with run := run }

/-- The runs of the shell are those of the watched one. -/
theorem map_run (w : BatchWatch) (as : List BatchRun.Action) :
    (step.run w as).map BatchWatch.run = BatchRun.step.run w.run as := by
  induction as generalizing w with
  | nil => rfl
  | cons a as ih =>
    rw [Machine.run, Machine.run, step]
    cases BatchRun.step w.run a with
    | none => rfl
    | some run => exact ih { w.note a with run := run }

/-- Every line before the end, or before the first that ends the session, was accepted and has been
reported with `SUCCEED`. -/
def Succeeded (w : BatchWatch) : Prop :=
  ∀ i < programEnd w.run.cmdLines, i ∈ w.accepted ∧ i ∈ w.succeeded

/-- The host is told of a success, or will be. -/
def TellsSuccess (w : BatchWatch) : Prop :=
  .stop true ∈ w.run.tasks ∨ true ∈ w.run.stops

/-- No line before one that ends the session is refused. -/
def Accepts (w : BatchWatch) : BatchRun.Action → Prop
  | .task _ => w.run.session.node.shoudExit = false → w.run.tasks.head? = some .runNextCommand →
      ∀ cmd, w.run.cmdLines[w.run.nextCommandIndex]? = some cmd → isCommand cmd = true
  | _ => True

/-- No command is reported with `SUCCEED` twice. -/
def OneSuccess (w : BatchWatch) : BatchRun.Action → Prop
  | .event e => w.run.session.OneSuccess e
  | _ => True

/-! ## What is known of the calls -/

/-- The calls and the lines they were for. -/
structure Ledger (w : BatchWatch) : Prop where
  session : w.run.session.Inv
  heard : ∀ c ∈ w.run.session.calls, c.Heard ∧ ¬ c.Twice
  length : w.accepted.length = w.run.session.calls.length
  nodup : w.accepted.Nodup
  bound : ∀ i ∈ w.accepted, i < w.run.nextCommandIndex
  counts : ∀ (k i : Nat) (c : Call), w.accepted[k]? = some i → w.run.session.calls[k]? = some c →
    (w.succeeded ++ w.posted).count i = c.notices.count .succeed
  mem : ∀ i ∈ w.succeeded ++ w.posted, i ∈ w.accepted

theorem Ledger.nodup_succeeded {w : BatchWatch} (h : w.Ledger) : w.succeeded.Nodup := by
  suffices hall : (w.succeeded ++ w.posted).Nodup from (List.nodup_append.1 hall).1
  rw [List.nodup_iff_count_le_one]
  intro i
  by_cases hi : i ∈ w.succeeded ++ w.posted
  · obtain ⟨k, hk⟩ := List.mem_iff_getElem?.1 (h.mem i hi)
    have hlt : k < w.run.session.calls.length := h.length ▸ (List.getElem?_eq_some_iff.1 hk).1
    have hc := List.getElem?_eq_getElem hlt
    have hmem := List.mem_of_getElem? hc
    rw [h.counts k i _ hk hc]
    exact Call.count_le_one (h.session _ hmem) (h.heard _ hmem).1 (h.heard _ hmem).2
  · rw [List.count_eq_zero_of_not_mem hi]
    exact Nat.zero_le 1

/-- As many successes as lines: each line has one. -/
theorem Ledger.mem_succeeded {w : BatchWatch} (h : w.Ledger)
    (hle : w.run.nextCommandIndex ≤ w.succeeded.length) {i : Nat}
    (hi : i < w.run.nextCommandIndex) : i ∈ w.accepted ∧ i ∈ w.succeeded := by
  have hsub : w.succeeded ⊆ List.range w.run.nextCommandIndex := fun j hj =>
    List.mem_range.2 (h.bound j (h.mem j (List.mem_append_left _ hj)))
  have hperm := (List.subperm_of_subset h.nodup_succeeded hsub).perm_of_length_le (by
    rw [List.length_range]
    exact hle)
  have hmem : i ∈ w.succeeded := hperm.mem_iff.2 (List.mem_range.2 hi)
  exact ⟨h.mem i (List.mem_append_left _ hmem), hmem⟩

/-! ## The invariant -/

structure Inv (w : BatchWatch) : Prop where
  ledger : w.Ledger
  waiting : w.posted.length = w.run.tasks.count (.notify .succeed)
  statuses : ∀ newStatus, .notify newStatus ∈ w.run.tasks →
    newStatus = .timeOut ∨ newStatus = .failed ∨ newStatus = .succeed
  /-- The shell runs one line more than it is told of successes. -/
  turns : w.run.nextCommandIndex + w.run.tasks.count .runNextCommand + w.run.joining.toNat ≤
    w.succeeded.length + 1
  index : w.run.nextCommandIndex ≤ w.run.cmdLines.length
  remote : 0 ≤ w.run.session.remote.sessionId
  connecting : w.run.connecting = true →
    w.run.session.node.sessionId = -1 ∧ w.run.session.calls = [] ∧ w.run.tasks = []
  staying : w.run.session.node.shoudExit = false →
    w.run.nextCommandIndex ≤ programEnd w.run.cmdLines
  leaving : w.run.session.node.shoudExit = true → w.Succeeded

/-- A run that differs in the node and in what is posted. -/
theorem Ledger.congr {w : BatchWatch} (h : w.Ledger) {run : BatchRun} (hinv : run.session.Inv)
    (hcalls : run.session.calls = w.run.session.calls)
    (hle : w.run.nextCommandIndex ≤ run.nextCommandIndex) : Ledger { w with run := run } where
  session := hinv
  heard := hcalls ▸ h.heard
  length := hcalls ▸ h.length
  nodup := h.nodup
  bound i hi := Nat.lt_of_lt_of_le (h.bound i hi) hle
  counts := hcalls ▸ h.counts
  mem := h.mem

theorem Inv.connect {w : BatchWatch} (h : w.Inv) (hconn : w.run.connecting = true)
    {answer : Answer} {node : LocalServerNode} {deeds : List Deed}
    (hs : w.run.session.node.handleCreateSessionResponse answer = (node, deeds)) :
    Inv { w with
      run := { w.run with
        session := { w.run.session with node := node }, connecting := false }.post
          (deeds.flatMap BatchRun.posts) } ∧
      .stop true ∉ deeds.flatMap BatchRun.posts := by
  obtain ⟨-, hcalls, htasks⟩ := h.connecting hconn
  obtain ⟨hexit, hposts⟩ : node.shoudExit = w.run.session.node.shoudExit ∧
      (deeds.flatMap BatchRun.posts = [] ∨ deeds.flatMap BatchRun.posts = [.stop false]) := by
    rw [LocalServerNode.handleCreateSessionResponse.eq_def] at hs
    repeat' split at hs
    all_goals
      obtain ⟨rfl, rfl⟩ := Prod.mk.inj hs
      exact ⟨rfl, by decide⟩
  have hwaiting := h.waiting
  have hturns := h.turns
  rw [htasks] at hwaiting hturns
  refine ⟨⟨h.ledger.congr ?_ rfl (Nat.le_refl _), ?_, ?_, ?_, h.index, h.remote, ?_, ?_, ?_⟩, ?_⟩
  · change ∀ c ∈ w.run.session.calls, Session.Sound node c
    rw [hcalls]
    exact List.forall_mem_nil _
  · change w.posted.length = (w.run.tasks ++ _).count _
    rcases hposts with hposts | hposts <;> rw [htasks, hposts] <;> exact hwaiting
  · change ∀ newStatus, .notify newStatus ∈ w.run.tasks ++ _ → _
    rcases hposts with hposts | hposts <;> simp [htasks, hposts]
  · change w.run.nextCommandIndex + (w.run.tasks ++ _).count _ + w.run.joining.toNat ≤ _
    rcases hposts with hposts | hposts <;> rw [htasks, hposts] <;> exact hturns
  · exact fun hno => absurd hno Bool.false_ne_true
  · exact fun hno => h.staying (hexit.symm.trans hno)
  · exact fun hleave => h.leaving (hexit.symm.trans hleave)
  · rcases hposts with hposts | hposts <;> simp [hposts]

theorem Inv.join {w : BatchWatch} (h : w.Inv) (hjoining : w.run.joining = true) {req : Request}
    {detail : CreateSessionRequest} (hsid : req.sessionId = w.run.session.remote.sessionId)
    (hbeat : req.sessionHeartBeat = false) (hout : req.executeOutput = none)
    (hcreate : req.createSession = some detail) {node : LocalServerNode} {deeds : List Deed}
    (hs : w.run.session.receive req = (node, deeds)) :
    Inv { w with
      run := { w.run with
        session := { w.run.session with node := node }, joining := false }.post
          (deeds.flatMap BatchRun.posts) } ∧
      .stop true ∉ deeds.flatMap BatchRun.posts := by
  have hremote := h.remote
  obtain ⟨hsession, hexit, hposts⟩ := BatchRun.receive_createSession hsid hbeat hout hcreate hs
  have hcount : (deeds.flatMap BatchRun.posts).count (.notify .succeed) = 0 ∧
      (deeds.flatMap BatchRun.posts).count .runNextCommand ≤ 1 ∧
      (∀ newStatus, .notify newStatus ∉ deeds.flatMap BatchRun.posts) ∧
      .stop true ∉ deeds.flatMap BatchRun.posts := by
    rcases hposts with hposts | ⟨hposts, -⟩ <;> simp [hposts]
  have hturns := h.turns
  rw [hjoining, Bool.toNat_true] at hturns
  refine ⟨⟨h.ledger.congr ?_ rfl (Nat.le_refl _), ?_, ?_, ?_, h.index, hremote, ?_, ?_, ?_⟩,
    hcount.2.2.2⟩
  · exact fun c hc => (h.ledger.session c hc).mono hsession hexit.trans
  · change w.posted.length = (w.run.tasks ++ _).count _
    rw [List.count_append, hcount.1]
    exact h.waiting
  · intro newStatus hmem
    exact h.statuses newStatus
      ((List.mem_append.1 hmem).resolve_right (hcount.2.2.1 newStatus))
  · change w.run.nextCommandIndex + (w.run.tasks ++ _).count _ + 0 ≤ w.succeeded.length + 1
    rw [List.count_append]
    omega
  · intro hconn
    obtain ⟨hno, hcalls, htasks⟩ := h.connecting hconn
    refine ⟨hsession.trans hno, hcalls, ?_⟩
    change w.run.tasks ++ _ = []
    rcases hposts with hposts | ⟨-, heq⟩
    · rw [htasks, hposts]
      rfl
    · omega
  · exact fun hno => h.staying (hexit.symm.trans hno)
  · exact fun hleave => h.leaving (hexit.symm.trans hleave)

/-- More is reported of one call. -/
theorem Ledger.hears {w : BatchWatch} (h : w.Ledger) {k i : Nat} {c c' : Call}
    {deeds : List Deed} (hk : w.run.session.calls[k]? = some c) (hi : w.accepted[k]? = some i)
    (hhears : Session.Hears c c' deeds) (htwice : ¬ c'.Twice) {session : Session}
    (hcalls : session.calls = w.run.session.calls.set k c') (hinv : session.Inv)
    {run : BatchRun} (hsession : run.session = session)
    (hnext : run.nextCommandIndex = w.run.nextCommandIndex) :
    Ledger { w with run := run, posted := w.posted ++ successes deeds i } := by
  have hlt : k < w.run.session.calls.length := (List.getElem?_eq_some_iff.1 hk).1
  subst hsession
  refine ⟨hinv, fun d hd => ?_, ?_, h.nodup, hnext ▸ h.bound, fun j x d hj hd => ?_,
    fun x hx => ?_⟩
  · rw [hcalls] at hd
    rcases List.mem_or_eq_of_mem_set hd with hd | rfl
    · exact h.heard d hd
    · exact ⟨hhears.heard (h.heard c (List.mem_of_getElem? hk)).1, htwice⟩
  · rw [hcalls, List.length_set]
    exact h.length
  · change (w.succeeded ++ (w.posted ++ successes deeds i)).count x = _
    change w.accepted[j]? = some x at hj
    rw [← List.append_assoc, List.count_append, successes, List.count_replicate]
    rw [hcalls, List.getElem?_set] at hd
    by_cases hjk : k = j
    · subst hjk
      obtain rfl := Option.some_inj.1 (hi.symm.trans hj)
      rw [if_pos rfl, if_pos hlt, Option.some_inj] at hd
      rw [h.counts k i c hi hk, ← hd, hhears.notices, List.count_append, if_pos (by simp)]
    · rw [if_neg hjk] at hd
      have hne : i ≠ x := by
        rintro rfl
        exact hjk ((List.getElem?_inj (List.getElem?_eq_some_iff.1 hi).1 h.nodup).1
          (hi.trans hj.symm))
      rw [h.counts j x d hj hd, if_neg (by simpa using hne), Nat.add_zero]
  · change x ∈ w.succeeded ++ (w.posted ++ successes deeds i) at hx
    rw [← List.append_assoc, List.mem_append] at hx
    rcases hx with hx | hx
    · exact h.mem x hx
    · rw [List.eq_of_mem_replicate hx]
      exact List.mem_of_getElem? hi

theorem Inv.event {w : BatchWatch} (h : w.Inv) {e : Session.Event} {session : Session}
    {deeds : List Deed} (hs : w.run.session.event e = some (session, deeds))
    (hone : w.run.session.OneSuccess e) :
    Inv { w.note (.event e) with
      run := { w.run with session := session }.post (deeds.flatMap BatchRun.posts) } ∧
      .stop true ∉ deeds.flatMap BatchRun.posts := by
  obtain ⟨hinv, hremote, hminor⟩ := Session.inv_of_event h.ledger.session hs
  obtain ⟨hplainly, hcases⟩ := Session.event_hears h.ledger.session hs
  have hposts := BatchRun.flatMap_posts hminor.deeds
  have hnote : ∃ posted : List Nat,
      w.note (.event e) = { w with posted := w.posted ++ posted } ∧
      posted.length = (Session.notices deeds).count .succeed ∧
      (w.run.session.calls = [] → session.calls = [] ∧ Session.notices deeds = []) ∧
      Ledger { w with
        run := { w.run with session := session }.post (deeds.flatMap BatchRun.posts)
        posted := w.posted ++ posted } := by
    rcases hcases with ⟨hcalls, hno⟩ | ⟨k, c, c', hcall, hk, hcalls, hhears, htwice⟩
    · refine ⟨[], ?_, by simp [hno], fun hnil => ⟨hcalls.trans hnil, hno⟩, ?_⟩
      · simp only [note, hs]
        cases e.call with
        | none => simp
        | some k => simp [successes, hno]
      · rw [List.append_nil]
        exact h.ledger.congr hinv hcalls (Nat.le_refl _)
    · have hlt : k < w.accepted.length :=
        h.ledger.length ▸ (List.getElem?_eq_some_iff.1 hk).1
      have hi := List.getElem?_eq_getElem hlt
      refine ⟨successes deeds w.accepted[k], ?_, List.length_replicate, fun hnil => ?_, ?_⟩
      · simp only [note, hs, hcall, hi, Option.toList_some, List.flatMap_singleton]
      · rw [hnil] at hk
        cases hk
      · have hno := (h.ledger.heard c (List.mem_of_getElem? hk)).2
        exact h.ledger.hears hk hi hhears (htwice hone hno) hcalls hinv rfl rfl
  obtain ⟨posted, hnote, hlen, hnil, hledger⟩ := hnote
  rw [hnote, hposts]
  rw [hposts] at hledger
  have hmem : ∀ newStatus, UiTask.notify newStatus ∈ (Session.notices deeds).map UiTask.notify →
      .notify newStatus ∈ deeds := by
    intro newStatus hmem
    obtain ⟨st, hst, heq⟩ := List.mem_map.1 hmem
    obtain rfl := UiTask.notify.inj heq
    rw [Session.notices, List.mem_filterMap] at hst
    obtain ⟨deed, hdeed, hst⟩ := hst
    split at hst
    · next st' =>
      exact Option.some_inj.1 hst ▸ hdeed
    · cases hst
  refine ⟨⟨hledger, ?_, fun newStatus hmem' => ?_, ?_, h.index, hremote ▸ h.remote,
    fun hconn => ?_, fun hno => h.staying (hminor.exit.symm.trans hno),
    fun hleave => h.leaving (hminor.exit.symm.trans hleave)⟩, by simp⟩
  · change (w.posted ++ posted).length = (w.run.tasks ++ _).count _
    rw [List.length_append, List.count_append, h.waiting, hlen,
      List.count_map_of_injective _ UiTask.notify fun _ _ => UiTask.notify.inj]
  · rcases List.mem_append.1 hmem' with hmem' | hmem'
    · exact h.statuses newStatus hmem'
    · exact hplainly newStatus (hmem newStatus hmem')
  · change w.run.nextCommandIndex + (w.run.tasks ++ _).count _ + _ ≤ _
    rw [List.count_append, List.count_eq_zero_of_not_mem
      (by simp : .runNextCommand ∉ (Session.notices deeds).map UiTask.notify)]
    exact h.turns
  · obtain ⟨hsid, hcalls, htasks⟩ := h.connecting hconn
    obtain ⟨hcalls', hno⟩ := hnil hcalls
    refine ⟨hminor.session.trans hsid, hcalls', ?_⟩
    change w.run.tasks ++ _ = []
    rw [htasks, hno]
    rfl

/-- A status is told: a success leads to the next line. -/
theorem Inv.hear {w : BatchWatch} (h : w.Inv) {newStatus : ServerStatus} {rest : List UiTask}
    (htasks : w.run.tasks = .notify newStatus :: rest) :
    Inv { w.hear newStatus with
      run := { w.run with tasks := rest }.post (BatchRun.onCommandStatusChanged newStatus) } ∧
      .stop true ∉ BatchRun.onCommandStatusChanged newStatus := by
  have hwaiting := h.waiting
  have hturns := h.turns
  have hconn : w.run.connecting = true → False := fun hconn => by
    have hnil := (h.connecting hconn).2.2
    rw [htasks] at hnil
    cases hnil
  have hrest : ∀ st, .notify st ∈ rest →
      st = .timeOut ∨ st = .failed ∨ st = .succeed := fun st hmem =>
    h.statuses st (by rw [htasks]; exact List.mem_cons_of_mem _ hmem)
  rw [htasks, List.count_cons_of_ne (by simp)] at hturns
  by_cases hsucceed : newStatus = .succeed
  · subst hsucceed
    rw [htasks, List.count_cons_self] at hwaiting
    obtain ⟨i, posted, hposted⟩ := List.exists_cons_of_length_eq_add_one hwaiting
    have hhear : w.hear .succeed =
        { w with posted := posted, succeeded := w.succeeded ++ [i] } := by
      simp [BatchWatch.hear, hposted]
    have hpost : BatchRun.onCommandStatusChanged .succeed = [.runNextCommand] := by decide
    have hsame : (w.succeeded ++ [i]) ++ posted = w.succeeded ++ w.posted := by
      rw [hposted, List.append_assoc, List.singleton_append]
    rw [hposted, List.length_cons, Nat.add_right_cancel_iff] at hwaiting
    rw [hhear, hpost]
    refine ⟨⟨⟨h.ledger.session, h.ledger.heard, h.ledger.length, h.ledger.nodup, h.ledger.bound,
      ?_, ?_⟩, ?_, ?_, ?_, h.index, h.remote, fun hno => (hconn hno).elim, h.staying,
      fun hleave i hi => ?_⟩, by simp⟩
    · exact fun k j c hj hc => (congrArg (List.count j) hsame).trans (h.ledger.counts k j c hj hc)
    · exact fun j hj => h.ledger.mem j (hsame ▸ hj)
    · change posted.length = (rest ++ [_]).count _
      rw [List.count_append, hwaiting]
      rfl
    · intro st hmem
      exact hrest st ((List.mem_append.1 hmem).resolve_right (by simp))
    · change w.run.nextCommandIndex + (rest ++ [_]).count _ + w.run.joining.toNat ≤
        (w.succeeded ++ [i]).length + 1
      rw [List.count_append, List.count_singleton_self, List.length_append, List.length_singleton]
      omega
    · obtain ⟨haccepted, hdone⟩ := h.leaving hleave i hi
      exact ⟨haccepted, List.mem_append_left _ hdone⟩
  · rw [htasks, List.count_cons_of_ne (by simpa using hsucceed)] at hwaiting
    have hhear : w.hear newStatus = w := if_neg hsucceed
    have hpost : BatchRun.onCommandStatusChanged newStatus = [.stop false] := by
      rcases h.statuses newStatus (by rw [htasks]; exact List.mem_cons_self) with rfl | rfl | rfl
      · rfl
      · rfl
      · exact absurd rfl hsucceed
    rw [hhear, hpost]
    refine ⟨⟨h.ledger.congr h.ledger.session rfl (Nat.le_refl _), ?_, ?_, ?_, h.index, h.remote,
      fun hno => (hconn hno).elim, h.staying, h.leaving⟩, by simp⟩
    · change w.posted.length = (rest ++ [_]).count _
      rw [List.count_append, hwaiting]
      rfl
    · intro st hmem
      exact hrest st ((List.mem_append.1 hmem).resolve_right (by simp))
    · change w.run.nextCommandIndex + (rest ++ [_]).count _ + _ ≤ _
      rw [List.count_append]
      exact hturns

theorem Inv.stop {w : BatchWatch} (h : w.Inv) {succeed : Bool} {rest : List UiTask}
    (htasks : w.run.tasks = .stop succeed :: rest) :
    Inv { w with run := { w.run with tasks := rest, stops := w.run.stops ++ [succeed] } } := by
  have hwaiting := h.waiting
  have hturns := h.turns
  rw [htasks, List.count_cons_of_ne (by simp)] at hwaiting hturns
  refine ⟨h.ledger.congr h.ledger.session rfl (Nat.le_refl _), hwaiting, fun st hmem => ?_, hturns,
    h.index, h.remote, fun hconn => ?_, h.staying, h.leaving⟩
  · exact h.statuses st (by rw [htasks]; exact List.mem_cons_of_mem _ hmem)
  · have hnil := (h.connecting hconn).2.2
    rw [htasks] at hnil
    cases hnil

/-! ## The next line -/

/-- When the shell is to run the next line, all those before it have succeeded. -/
theorem Inv.ready {w : BatchWatch} (h : w.Inv) {rest : List UiTask}
    (htasks : w.run.tasks = .runNextCommand :: rest) {i : Nat}
    (hi : i < w.run.nextCommandIndex) : i ∈ w.accepted ∧ i ∈ w.succeeded := by
  have hturns := h.turns
  rw [htasks, List.count_cons_self] at hturns
  exact h.ledger.mem_succeeded (by omega) hi

/-- The shell posts a success in place of the task, at the end or after a refused line. -/
theorem Inv.next {w : BatchWatch} (h : w.Inv) {rest : List UiTask}
    (htasks : w.run.tasks = .runNextCommand :: rest) {n : Nat} (hle : w.run.nextCommandIndex ≤ n)
    (hone : n ≤ w.run.nextCommandIndex + 1) (hindex : n ≤ w.run.cmdLines.length)
    (hstay : w.run.session.node.shoudExit = false → n ≤ programEnd w.run.cmdLines)
    (submitted : List Text) :
    Inv { w with
      run := { w.run with
        tasks := rest ++ [.stop true], nextCommandIndex := n, submitted := submitted } } := by
  have hwaiting := h.waiting
  have hturns := h.turns
  rw [htasks, List.count_cons_of_ne (by simp)] at hwaiting
  rw [htasks, List.count_cons_self] at hturns
  refine ⟨h.ledger.congr h.ledger.session rfl hle, ?_, fun st hmem => ?_, ?_, hindex, h.remote,
    fun hconn => ?_, hstay, h.leaving⟩
  · change w.posted.length = (rest ++ [_]).count _
    rw [List.count_append, hwaiting]
    rfl
  · have hmem := (List.mem_append.1 hmem).resolve_right (by simp)
    exact h.statuses st (by rw [htasks]; exact List.mem_cons_of_mem _ hmem)
  · change n + (rest ++ [_]).count _ + w.run.joining.toNat ≤ w.succeeded.length + 1
    have hzero : [UiTask.stop true].count .runNextCommand = 0 := rfl
    rw [List.count_append]
    omega
  · have hnil := (h.connecting hconn).2.2
    rw [htasks] at hnil
    cases hnil

theorem connectStatus_not_mem {n n' : LocalServerNode} {deeds : List Deed}
    (h : LocalServerNode.Outcome n n' deeds) (newStatus : ServerStatus) :
    .connectStatus newStatus ∉ deeds := by
  cases h with
  | notify before st hbefore hsession hexit =>
    rw [List.mem_append, List.mem_singleton]
    rintro (hmem | ⟨⟨⟩⟩)
    obtain ⟨line, ⟨⟩⟩ := hbefore _ hmem
  | operation => simp
  | leave => simp
  | command => simp

/-- A new call has been reported at most with what it posts. -/
theorem heard_call {n n' : LocalServerNode} {deeds : List Deed}
    (h : LocalServerNode.Outcome n n' deeds) (line : Text) :
    Call.Heard { line := line, sent := Session.sent deeds, notices := Session.notices deeds } := by
  intro req timeout hsent
  cases h with
  | notify before st hbefore hsession hexit =>
    obtain ⟨-, hnone⟩ := Session.notices_systems hbefore
    rw [Session.sent] at hnone
    change Session.sent _ = _ at hsent
    rw [Session.sent, List.findSome?_append, hnone] at hsent
    cases hsent
  | operation => cases hsent
  | leave => cases hsent
  | command => rfl

theorem Ledger.call {w : BatchWatch} (h : w.Ledger) {files : Files} {cmd : Text}
    {session : Session} {deeds : List Deed}
    (hs : w.run.session.call files cmd = some (session, deeds)) {run : BatchRun}
    (hsession : run.session = session)
    (hnext : run.nextCommandIndex = w.run.nextCommandIndex + 1) :
    Ledger { w with
      run := run
      accepted := w.accepted ++ [w.run.nextCommandIndex]
      posted := w.posted ++ successes deeds w.run.nextCommandIndex } := by
  obtain ⟨-, hout, hcalls⟩ := Session.call_cases hs
  obtain ⟨hsid, hexit⟩ := Session.outcome_kept hout
  have hnew : w.run.nextCommandIndex ∉ w.accepted := fun hmem =>
    Nat.lt_irrefl _ (h.bound _ hmem)
  have hassoc : w.succeeded ++ (w.posted ++ successes deeds w.run.nextCommandIndex) =
      (w.succeeded ++ w.posted) ++ successes deeds w.run.nextCommandIndex :=
    (List.append_assoc _ _ _).symm
  subst hsession
  refine ⟨?_, ?_, ?_, ?_, fun i hi => ?_, fun k i c hi hc => ?_, fun i hi => ?_⟩
  · change ∀ c ∈ run.session.calls, Session.Sound run.session.node c
    rw [hcalls, List.forall_mem_append, List.forall_mem_singleton]
    exact ⟨fun c hc => (h.session c hc).mono hsid hexit, (Session.sound_call hout cmd).1⟩
  · rw [hcalls, List.forall_mem_append, List.forall_mem_singleton]
    exact ⟨h.heard, heard_call hout cmd, fun htwice => Bool.false_ne_true htwice.1⟩
  · rw [hcalls, List.length_append, List.length_append, h.length]
    rfl
  · rw [List.nodup_append]
    refine ⟨h.nodup, List.nodup_singleton _, fun i hi j hj => ?_⟩
    rw [List.mem_singleton.1 hj]
    exact fun heq => hnew (heq ▸ hi)
  · rw [hnext]
    rcases List.mem_append.1 hi with hi | hi
    · exact Nat.lt_succ_of_lt (h.bound i hi)
    · rw [List.mem_singleton.1 hi]
      exact Nat.lt_succ_self _
  · change (w.accepted ++ [w.run.nextCommandIndex])[k]? = some i at hi
    change (w.succeeded ++ (w.posted ++ successes deeds w.run.nextCommandIndex)).count i = _
    rw [hassoc, List.count_append, successes, List.count_replicate]
    rw [hcalls] at hc
    by_cases hlt : k < w.accepted.length
    · rw [List.getElem?_append_left hlt] at hi
      rw [List.getElem?_append_left (h.length ▸ hlt)] at hc
      have hne : w.run.nextCommandIndex ≠ i := fun heq =>
        hnew (heq ▸ List.mem_of_getElem? hi)
      rw [h.counts k i c hi hc, if_neg (by simpa using hne), Nat.add_zero]
    · obtain rfl : k = w.accepted.length := by
        have := (List.getElem?_eq_some_iff.1 hi).1
        rw [List.length_append, List.length_singleton] at this
        omega
      rw [List.getElem?_concat_length, Option.some_inj] at hi
      rw [h.length, List.getElem?_concat_length, Option.some_inj] at hc
      subst hi hc
      rw [List.count_eq_zero_of_not_mem fun hmem => hnew (h.mem _ hmem), Nat.zero_add,
        if_pos (by simp)]
  · change i ∈ w.succeeded ++ (w.posted ++ successes deeds w.run.nextCommandIndex) at hi
    rw [hassoc, List.mem_append] at hi
    rcases hi with hi | hi
    · exact List.mem_append_left _ (h.mem i hi)
    · rw [List.eq_of_mem_replicate hi]
      exact List.mem_append_right _ (List.mem_singleton_self _)

/-- The next line is accepted. -/
theorem Inv.call {w : BatchWatch} (h : w.Inv) {rest : List UiTask}
    (htasks : w.run.tasks = .runNextCommand :: rest) {files : Files} {cmd : Text}
    (hcmd : w.run.cmdLines[w.run.nextCommandIndex]? = some cmd) {session : Session}
    {deeds : List Deed} (hs : w.run.session.call files cmd = some (session, deeds))
    (submitted : List Text) {ts : List UiTask} (hts : ts = [] ∨ ts = [.stop true]) :
    Inv { w with
      run := { w.run with
        session := session
        nextCommandIndex := w.run.nextCommandIndex + 1
        tasks := rest ++ deeds.flatMap BatchRun.posts ++ ts
        submitted := submitted }
      accepted := w.accepted ++ [w.run.nextCommandIndex]
      posted := w.posted ++ successes deeds w.run.nextCommandIndex } := by
  obtain ⟨hremote, hout, hcalls⟩ := Session.call_cases hs
  obtain ⟨hplainly, hexit⟩ : LocalServerNode.Plainly deeds ∧
      session.node.shoudExit = (w.run.session.node.shoudExit || isExit cmd) := by
    rw [Session.call] at hs
    split at hs
    · next n' ds hexec =>
      obtain ⟨rfl, rfl⟩ := Prod.mk.inj (Option.some_inj.1 hs)
      exact LocalServerNode.executeCommandRemotely_spec hexec
    · cases hs
  have hwaiting := h.waiting
  have hturns := h.turns
  rw [htasks, List.count_cons_of_ne (by simp)] at hwaiting
  rw [htasks, List.count_cons_self] at hturns
  have hposts := BatchRun.flatMap_posts (connectStatus_not_mem hout)
  have hnot : ∀ st, .notify st ∉ ts := by
    rcases hts with rfl | rfl <;> simp
  have hnext : .runNextCommand ∉ ts := by
    rcases hts with rfl | rfl <;> simp
  refine ⟨h.ledger.call hs rfl rfl, ?_, fun st hmem => ?_, ?_,
    (List.getElem?_eq_some_iff.1 hcmd).1, hremote ▸ h.remote, fun hconn => ?_, fun hno => ?_,
    fun hleave i hi => ?_⟩
  · change (w.posted ++ successes _ _).length = (rest ++ _ ++ ts).count _
    rw [List.length_append, List.count_append, List.count_append, hwaiting, hposts, successes,
      List.length_replicate, List.count_map_of_injective _ UiTask.notify fun _ _ =>
        UiTask.notify.inj, List.count_eq_zero_of_not_mem (hnot _), Nat.add_zero]
  · have hmem := (List.mem_append.1 hmem).resolve_right (hnot st)
    rcases List.mem_append.1 hmem with hmem | hmem
    · exact h.statuses st (by rw [htasks]; exact List.mem_cons_of_mem _ hmem)
    · obtain ⟨deed, hdeed, hst⟩ := List.mem_flatMap.1 hmem
      cases deed with
      | notify newStatus =>
        obtain rfl := UiTask.notify.inj (List.mem_singleton.1 hst)
        exact hplainly _ hdeed
      | connectStatus newStatus => exact absurd hdeed (connectStatus_not_mem hout newStatus)
      | _ => cases hst
  · change w.run.nextCommandIndex + 1 + (rest ++ _ ++ ts).count _ + w.run.joining.toNat ≤
      w.succeeded.length + 1
    have hno : UiTask.runNextCommand ∉ (Session.notices deeds).map UiTask.notify := by simp
    rw [List.count_append, List.count_append, hposts, List.count_eq_zero_of_not_mem hnext,
      List.count_eq_zero_of_not_mem hno]
    omega
  · have hnil := (h.connecting hconn).2.2
    rw [htasks] at hnil
    cases hnil
  · rw [hexit, Bool.or_eq_false_iff] at hno
    exact lt_programEnd (h.staying hno.1) hcmd hno.2
  · rw [hexit, Bool.or_eq_true] at hleave
    have hdone : i ∈ w.accepted ∧ i ∈ w.succeeded := by
      rcases hleave with hleave | hleave
      · exact h.leaving hleave i hi
      · exact h.ready htasks (Nat.lt_of_lt_of_le hi (programEnd_le hcmd hleave))
    exact ⟨List.mem_append_left _ hdone.1, hdone.2⟩

/-! ## One step -/

theorem cmdLines_runNextCommandImpl (files : Files) (s : BatchRun) :
    (s.runNextCommandImpl files).cmdLines = s.cmdLines := by
  rw [BatchRun.runNextCommandImpl.eq_def]
  split
  · rfl
  · simp only
    split
    · split <;> rfl
    · rfl

theorem cmdLines_step {s t : BatchRun} {a : BatchRun.Action} (hs : BatchRun.step s a = some t) :
    t.cmdLines = s.cmdLines := by
  cases a with
  | task files =>
    simp only [BatchRun.step] at hs
    split at hs
    · next task rest htasks =>
      obtain rfl := Option.some_inj.1 hs
      cases task with
      | notify newStatus => rfl
      | runNextCommand => exact cmdLines_runNextCommandImpl files _
      | stop succeed => rfl
    · cases hs
  | _ =>
    simp only [BatchRun.step] at hs
    split at hs
    · obtain rfl := Option.some_inj.1 hs
      rfl
    · cases hs

theorem subset_submit (files : Files) (w : BatchWatch) :
    w.accepted ⊆ (w.submit files).accepted ∧ w.succeeded ⊆ (w.submit files).succeeded := by
  rw [submit]
  split
  · split
    · exact ⟨List.subset_append_left _ _, List.Subset.refl _⟩
    · exact ⟨List.Subset.refl _, List.Subset.refl _⟩
  · exact ⟨List.Subset.refl _, List.Subset.refl _⟩

theorem subset_hear (w : BatchWatch) (newStatus : ServerStatus) :
    w.accepted ⊆ (w.hear newStatus).accepted ∧ w.succeeded ⊆ (w.hear newStatus).succeeded := by
  rw [hear]
  split
  · exact ⟨List.Subset.refl _, List.subset_append_left _ _⟩
  · exact ⟨List.Subset.refl _, List.Subset.refl _⟩

theorem subset_note (w : BatchWatch) (a : BatchRun.Action) :
    w.accepted ⊆ (w.note a).accepted ∧ w.succeeded ⊆ (w.note a).succeeded := by
  rw [note.eq_def]
  repeat' split
  all_goals first
    | exact subset_hear w _
    | exact subset_submit _ w
    | exact ⟨List.Subset.refl _, List.Subset.refl _⟩

/-- What has succeeded has. -/
theorem Succeeded.step {w v : BatchWatch} {a : BatchRun.Action} (h : w.Succeeded)
    (hs : step w a = some v) : v.Succeeded := by
  obtain ⟨run, hrun, rfl⟩ := Option.map_eq_some_iff.1 hs
  obtain ⟨haccepted, hsucceeded⟩ := subset_note w a
  intro i hi
  obtain ⟨ha, hb⟩ := h i (cmdLines_step hrun ▸ hi)
  exact ⟨haccepted ha, hsucceeded hb⟩

/-- A step that posts no success. -/
theorem told_quiet {w v : BatchWatch} {a : BatchRun.Action} (hs : step w a = some v)
    (htells : v.TellsSuccess → w.TellsSuccess) (ha : w.Accepts a)
    (htold : w.TellsSuccess → w.Succeeded) :
    (v.TellsSuccess → v.Succeeded) ↔ w.Accepts a :=
  iff_of_true (fun h => (htold (htells h)).step hs) ha

theorem call_eq_none_iff {files : Files} {s : Session} {cmd : Text} :
    s.call files cmd = none ↔ isCommand cmd = false := by
  rw [← LocalServerNode.executeCommandRemotely_eq_none_iff files s.node cmd, Session.call]
  cases s.node.executeCommandRemotely files cmd <;> simp

/-- The shell runs its next line, if there is one. -/
theorem told_run {w v : BatchWatch} (h : w.Inv) {rest : List UiTask}
    (htasks : w.run.tasks = .runNextCommand :: rest) {files : Files}
    (hs : step w (.task files) = some v) :
    v.Inv ∧ ((w.TellsSuccess → w.Succeeded) →
      ((v.TellsSuccess → v.Succeeded) ↔ w.Accepts (.task files))) := by
  have hv : v = { w.submit files with
      run := { w.run with tasks := rest }.runNextCommandImpl files } := by
    rw [step, BatchRun.step, htasks] at hs
    simp only [note, htasks] at hs
    exact (Option.some_inj.1 hs).symm
  cases hcmd : w.run.cmdLines[w.run.nextCommandIndex]? with
  | none =>
    simp only [submit, BatchRun.runNextCommandImpl, hcmd] at hv
    subst hv
    refine ⟨h.next htasks (Nat.le_refl _) (Nat.le_succ _) h.index h.staying _, fun _ =>
      iff_of_true (fun _ i hi => ?_) fun _ _ cmd hsome => ?_⟩
    · exact h.ready htasks (Nat.lt_of_lt_of_le hi
        (Nat.le_trans List.findIdx_le_length (List.getElem?_eq_none_iff.1 hcmd)))
    · rw [hcmd] at hsome
      cases hsome
  | some cmd =>
    cases hcall : w.run.session.call files cmd with
    | none =>
      have hrefused := call_eq_none_iff.1 hcall
      have hno : isExit cmd = false := by
        by_contra hexit
        rw [isCommand_of_isExit (Bool.not_eq_false _ ▸ hexit)] at hrefused
        cases hrefused
      have hlt : w.run.session.node.shoudExit = false →
          w.run.nextCommandIndex < programEnd w.run.cmdLines := fun hstay =>
        lt_programEnd (h.staying hstay) hcmd hno
      simp only [submit, BatchRun.runNextCommandImpl, hcmd, hcall] at hv
      subst hv
      refine ⟨h.next htasks (Nat.le_succ _) (Nat.le_refl _) (List.getElem?_eq_some_iff.1 hcmd).1
        hlt _, fun _ => ?_⟩
      cases hexit : w.run.session.node.shoudExit with
      | true =>
        refine iff_of_true (fun _ => h.leaving hexit) fun hstay => ?_
        exact absurd (hexit.symm.trans hstay) (by simp)
      | false =>
        refine iff_of_false (fun htold => ?_) fun haccepts => ?_
        · have hdone := htold (.inl (List.mem_append_right _ (List.mem_singleton_self _)))
          exact Nat.lt_irrefl _ (h.ledger.bound _ (hdone _ (hlt hexit)).1)
        · rw [haccepts hexit (by rw [htasks]; rfl) cmd hcmd] at hrefused
          cases hrefused
    | some done =>
      obtain ⟨session, deeds⟩ := done
      have haccepts : w.Accepts (.task files) := fun _ _ cmd' hcmd' => by
        obtain rfl := Option.some_inj.1 (hcmd.symm.trans hcmd')
        by_contra hno
        rw [call_eq_none_iff.2 (Bool.not_eq_true _ ▸ hno)] at hcall
        cases hcall
      have hposts := BatchRun.flatMap_posts
        (connectStatus_not_mem (Session.call_cases hcall).2.1)
      have hstep := hs
      simp only [submit, BatchRun.runNextCommandImpl, hcmd, hcall] at hv
      cases hexit : session.node.shoudExit with
      | true =>
        rw [hexit, if_pos rfl] at hv
        subst hv
        have hinv := h.call htasks hcmd hcall (w.run.submitted ++ [cmd]) (.inr rfl)
        exact ⟨hinv, fun _ => iff_of_true (fun _ => hinv.leaving hexit) haccepts⟩
      | false =>
        rw [hexit, if_neg Bool.false_ne_true] at hv
        subst hv
        have hinv := h.call htasks hcmd hcall (w.run.submitted ++ [cmd]) (.inl rfl)
        rw [List.append_nil] at hinv
        refine ⟨hinv, told_quiet hstep (Or.imp_left fun htells => ?_) haccepts⟩
        rw [htasks]
        refine List.mem_cons_of_mem _ ((List.mem_append.1 htells).resolve_right ?_)
        rw [hposts]
        simp

/-- A step keeps the invariant; and the host, if it is told of successes only, will be so exactly if
no line is refused. -/
theorem told_step {w v : BatchWatch} {a : BatchRun.Action} (h : w.Inv) (hone : w.OneSuccess a)
    (hs : step w a = some v) :
    v.Inv ∧ ((w.TellsSuccess → w.Succeeded) → ((v.TellsSuccess → v.Succeeded) ↔ w.Accepts a)) := by
  have hsame := hs
  obtain ⟨run, hrun, rfl⟩ := Option.map_eq_some_iff.1 hs
  cases a with
  | connect answer =>
    simp only [BatchRun.step] at hrun
    split at hrun
    · next hconn =>
      obtain rfl := Option.some_inj.1 hrun
      obtain ⟨hinv, hno⟩ := h.connect hconn rfl
      refine ⟨hinv, told_quiet hsame (Or.imp_left fun hmem => ?_) trivial⟩
      exact (List.mem_append.1 hmem).resolve_right hno
    · cases hrun
  | join =>
    simp only [BatchRun.step] at hrun
    split at hrun
    · next hjoining =>
      obtain rfl := Option.some_inj.1 hrun
      obtain ⟨hinv, hno⟩ := h.join hjoining rfl rfl rfl rfl
        (rfl : w.run.session.receive
          { sessionId := w.run.session.remote.sessionId
            createSession := some { address := w.run.session.remote.address } } = _)
      refine ⟨hinv, told_quiet hsame (Or.imp_left fun hmem => ?_) trivial⟩
      exact (List.mem_append.1 hmem).resolve_right hno
    · cases hrun
  | event e =>
    simp only [BatchRun.step] at hrun
    split at hrun
    · next session deeds hevent =>
      obtain rfl := Option.some_inj.1 hrun
      obtain ⟨hinv, hno⟩ := h.event hevent hone
      refine ⟨hinv, told_quiet hsame (Or.imp_left fun hmem => ?_) trivial⟩
      exact (List.mem_append.1 hmem).resolve_right hno
    · cases hrun
  | task files =>
    simp only [BatchRun.step] at hrun
    split at hrun
    · next task rest htasks =>
      obtain rfl := Option.some_inj.1 hrun
      have hmem : ∀ t ∈ rest, t ∈ w.run.tasks := fun t ht =>
        htasks ▸ List.mem_cons_of_mem task ht
      have hno : task ≠ .runNextCommand → w.Accepts (.task files) := fun hne _ hhead => by
        rw [htasks, List.head?_cons, Option.some_inj] at hhead
        exact absurd hhead hne
      cases task with
      | notify newStatus =>
        obtain ⟨hinv, hstop⟩ := h.hear htasks
        refine ⟨?_, told_quiet hsame (Or.imp_left fun htells => ?_) (hno (by simp))⟩
        · simp only [note, htasks]
          exact hinv
        · exact hmem _ ((List.mem_append.1 htells).resolve_right hstop)
      | stop succeed =>
        refine ⟨?_, told_quiet hsame (fun htells => ?_) (hno (by simp))⟩
        · simp only [note, htasks]
          exact h.stop htasks
        · rcases htells with htells | htells
          · exact .inl (hmem _ htells)
          · rcases List.mem_append.1 htells with htells | htells
            · exact .inr htells
            · rw [← List.mem_singleton.1 htells] at htasks
              exact .inl (htasks ▸ List.mem_cons_self)
      | runNextCommand => exact told_run h htasks hsame
    · cases hrun

theorem accepts_of_refused {w : BatchWatch} {a : BatchRun.Action} (hs : step w a = none) :
    w.Accepts a := by
  cases a with
  | task files =>
    rw [step, Option.map_eq_none_iff, BatchRun.step] at hs
    split at hs
    · cases hs
    · next hnil =>
      intro _ hhead
      rw [hnil] at hhead
      cases hhead
  | _ => trivial

/-! ## Runs -/

/-- `BatchRun.start`, watched. -/
def start (address target executor : String) (sid : Nat) (started : Bool) (cmdLines : List Text) :
    BatchWatch :=
  { run := BatchRun.start address target executor sid started cmdLines }

theorem ledger_of_no_calls {run : BatchRun} (hcalls : run.session.calls = []) :
    Ledger { run := run } where
  session c hc := by
    rw [hcalls] at hc
    cases hc
  heard c hc := by
    rw [hcalls] at hc
    cases hc
  length := by
    rw [hcalls]
    rfl
  nodup := List.nodup_nil
  bound := List.forall_mem_nil _
  counts k i c hi := by cases hi
  mem := List.forall_mem_nil _

theorem inv_start (address target executor : String) (sid : Nat) (started : Bool)
    (cmdLines : List Text) :
    (start address target executor sid started cmdLines).Inv ∧
      ¬ (start address target executor sid started cmdLines).TellsSuccess := by
  cases started with
  | true =>
    refine ⟨⟨ledger_of_no_calls rfl, rfl, by simp [start, BatchRun.start], Nat.le_refl 1,
      Nat.zero_le _, Int.natCast_nonneg sid, fun _ => ⟨rfl, rfl, rfl⟩, fun _ => Nat.zero_le _, ?_⟩,
      ?_⟩
    · rintro ⟨⟩
    · rintro (⟨⟨⟩⟩ | ⟨⟨⟩⟩)
  | false =>
    refine ⟨⟨ledger_of_no_calls rfl, rfl, ?_, Nat.zero_le 1, Nat.zero_le _,
      Int.natCast_nonneg sid, ?_, fun _ => Nat.zero_le _, ?_⟩, ?_⟩
    · simp [start, BatchRun.start]
    · rintro ⟨⟩
    · rintro ⟨⟩
    · simp [start, BatchRun.start, TellsSuccess]

/-- **When a batch succeeds.**  In a run in which no command is reported with `SUCCEED` twice, the
host is told of a success — and one is posted — only when every line before the end, or before the
first `exit` or `q` line, was accepted by `executeCommandRemotely` and has been reported with
`SUCCEED`, in exactly the runs in which no such line that the shell comes to is refused. -/
theorem success_iff (address target executor : String) (sid : Nat) (started : Bool)
    (cmdLines : List Text) (as : List BatchRun.Action)
    (hone : step.Meets OneSuccess (start address target executor sid started cmdLines) as) :
    (∀ pre w, pre <+: as →
      step.run (start address target executor sid started cmdLines) pre = some w →
      w.TellsSuccess → w.Succeeded) ↔
    step.Meets Accepts (start address target executor sid started cmdLines) as := by
  obtain ⟨hinv, hno⟩ := inv_start address target executor sid started cmdLines
  have htold : (start address target executor sid started cmdLines).TellsSuccess →
      (start address target executor sid started cmdLines).Succeeded := fun htells =>
    absurd htells hno
  refine Machine.always_iff_of_meets (P := fun w => w.TellsSuccess → w.Succeeded)
    (fun w a v hone hinv _ _ hs => ?_) (fun w a hone hinv hw => ?_) hone hinv htold
  · exact (told_step hinv hone hs).1
  · constructor
    · intro hC
      cases hs : step w a with
      | some v => exact ((told_step hinv hone hs).2 hw).1 (hC v hs)
      | none => exact accepts_of_refused hs
    · exact fun ha v hs => ((told_step hinv hone hs).2 hw).2 ha

/-- Lines that are all commands are not refused. -/
theorem meets_accepts {w : BatchWatch} (h : ∀ line ∈ w.run.cmdLines, isCommand line = true)
    (as : List BatchRun.Action) : step.Meets Accepts w as := by
  refine Machine.meets_of_invariant (P := fun w => ∀ line ∈ w.run.cmdLines, isCommand line = true)
    (fun w a v hw hs => ?_) (fun w a hw => ?_) h as
  · obtain ⟨run, hrun, rfl⟩ := Option.map_eq_some_iff.1 hs
    exact fun line hline => hw line (cmdLines_step hrun ▸ hline)
  · cases a with
    | task _ => exact fun _ _ cmd hcmd => hw cmd (List.mem_of_getElem? hcmd)
    | _ => trivial

/-- A command that exits and is then answered. -/
theorem success_iff_dir :
    step.Meets OneSuccess (start "tcp://10.0.0.1:3400" "tcp://10.0.0.2:3330" "tcp://10.0.0.2:3400"
        0 true ["dir".toList])
      [.connect (.ok {}), .join, .task {}, .event (.take 0 {} true 0), .event (.exit 0 0 0),
        .task {}, .task {}, .event (.answer 0 {}), .task {}] ∧
    ∃ w, step.run (start "tcp://10.0.0.1:3400" "tcp://10.0.0.2:3330" "tcp://10.0.0.2:3400"
        0 true ["dir".toList])
      [.connect (.ok {}), .join, .task {}, .event (.take 0 {} true 0), .event (.exit 0 0 0),
        .task {}, .task {}, .event (.answer 0 {}), .task {}] = some w ∧
      true ∈ w.run.stops ∧ w.Succeeded := by
  have hone : step.Meets OneSuccess (start "tcp://10.0.0.1:3400" "tcp://10.0.0.2:3330"
        "tcp://10.0.0.2:3400" 0 true ["dir".toList])
      [.connect (.ok {}), .join, .task {}, .event (.take 0 {} true 0), .event (.exit 0 0 0),
        .task {}, .task {}, .event (.answer 0 {}), .task {}] := by
    refine ⟨trivial, fun _ h₁ => ⟨trivial, fun _ h₂ => ⟨trivial, fun _ h₃ => ⟨trivial, fun _ h₄ =>
      ⟨?exit, fun _ h₅ => ⟨trivial, fun _ h₆ => ⟨trivial, fun _ h₇ => ⟨?answer, fun _ _ =>
        ⟨trivial, fun _ _ => trivial⟩⟩⟩⟩⟩⟩⟩⟩⟩
    case exit =>
      obtain rfl := Option.some_inj.1 h₁
      obtain rfl := Option.some_inj.1 h₂
      obtain rfl := Option.some_inj.1 h₃
      obtain rfl := Option.some_inj.1 h₄
      -- the reply is still on its way
      rintro c req hc - - - ⟨reply, hanswered⟩
      obtain rfl := Option.some_inj.1 hc
      cases hanswered
    case answer =>
      obtain rfl := Option.some_inj.1 h₁
      obtain rfl := Option.some_inj.1 h₂
      obtain rfl := Option.some_inj.1 h₃
      obtain rfl := Option.some_inj.1 h₄
      obtain rfl := Option.some_inj.1 h₅
      obtain rfl := Option.some_inj.1 h₆
      obtain rfl := Option.some_inj.1 h₇
      exact fun _ _ _ _ _ => rfl
  refine ⟨hone, _, rfl, by decide, ?_⟩
  exact (success_iff _ _ _ _ _ _ _ hone).2 (meets_accepts (by decide) _) _ _ List.prefix_rfl rfl
    (.inr (by decide))

/-- A line of nothing is refused, and the host is told of a success; it is also told so of a command
that is still running, when the one before it is reported by its exit and again by its reply. -/
theorem success_of_failure :
    (¬ ∀ (address target executor : String) (sid : Nat) (started : Bool) (cmdLines : List Text)
        (as : List BatchRun.Action) (w : BatchWatch),
      step.run (start address target executor sid started cmdLines) as = some w →
      true ∈ w.run.stops → w.Succeeded) ∧
    ¬ ∀ (address target executor : String) (sid : Nat) (started : Bool) (cmdLines : List Text)
        (as : List BatchRun.Action) (w : BatchWatch), (∀ line ∈ cmdLines, isCommand line = true) →
      step.run (start address target executor sid started cmdLines) as = some w →
      true ∈ w.run.stops → w.Succeeded := by
  constructor
  · intro h
    have hdone := h "tcp://10.0.0.1:3400" "tcp://10.0.0.2:3330" "tcp://10.0.0.2:3400" 0 true [[]]
      [.connect (.ok {}), .join, .task {}, .task {}] _ rfl List.mem_cons_self 0 (by decide)
    exact absurd hdone.1 List.not_mem_nil
  · intro h
    have hdone := h "tcp://10.0.0.1:3400" "tcp://10.0.0.2:3330" "tcp://10.0.0.2:3400" 0 true
      ["make".toList, "option no_wait_for_command".toList, "run".toList]
      [.connect (.ok {}), .join, .task {}, .event (.take 0 {} true 0), .event (.exit 0 0 0),
        .task {}, .task {}, .event (.answer 0 {}), .task {}, .task {}, .task {}, .task {}, .task {}]
      _ (by decide) rfl (by decide) 2 (by decide)
    exact absurd hdone.2 (by decide)

end BatchWatch

end Dcfpe.Rs
