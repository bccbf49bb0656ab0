import Dcfpe.Lib.Machine
import Dcfpe.Lib.Tokens
import Mathlib.Logic.Function.Basic

/-!
# Posting to the threads of the pool

`InitializeThreadPool` makes the threads in the order of their ids, `DeinitializeThreadPool` ends
them in the reverse order, and `PostTaskHelper` does without the lock when the caller finds itself
among the threads with an id that is no less than the target's: then the target "outlives" it.

A step is one access to what the threads share: an entry of `globals.threads`, a `message_loop_`, a
message loop, the lock.  That a thread can be made is taken for granted.  An access through a null
pointer or to freed memory is a `Fault`.  A thread outside the pool finds itself nowhere in it,
unless its own loop and that of an entry are both null.
-/

set_option autoImplicit false

namespace Dcfpe.Base

/-- `ID_COUNT`, after UI, DB, FILE, FILE_USER_BLOCKING, PROCESS_LAUNCHER, CACHE, IO, COMPUTE. -/
def idCount : Nat := 8

namespace ThreadPool

/-- How far `ThreadMain` has got. -/
inductive Stage where
  | absent
  | created
  /-- `message_loop_` is set; the thread that made it still waits. -/
  | looped
  /-- In `Run`. -/
  | running
  /-- `message_loop_` is null again, and the loop is about to be destroyed. -/
  | left
  | ended
  deriving DecidableEq, Repr

/-- An entry of `globals.threads`, with the `ThreadPoolImpl` and the thread it is for. -/
structure Slot where
  registered : Bool := false
  /-- The `ThreadPoolImpl` is allocated. -/
  object : Bool := false
  /-- `ThreadQuitHelper` has been posted. -/
  quit : Bool := false
  stage : Stage := .absent
  deriving DecidableEq, Repr

namespace Slot

/-- A thread that is up. -/
def up : Slot := { registered := true, object := true, stage := .running }

/-- What is left of a thread that has been stopped and freed. -/
def gone : Slot := { quit := true, stage := .ended }

/-- What can be read through the entry. -/
def readable (s : Slot) : Bool := s.registered && s.object

/-- `message_loop()` is not null. -/
def messageLoop (s : Slot) : Bool := s.stage = .looped || s.stage = .running

def loopAlive (s : Slot) : Bool := s.messageLoop || s.stage = .left

/-- The thread has had its loop. -/
def started (s : Slot) : Bool := s.loopAlive || s.stage = .ended

end Slot

/-- `(*thread_to_start).reset(new ThreadPoolImpl(id))` and `StartWithOptions`. -/
inductive Setup where
  | alloc
  | acquire
  | register
  | release
  | create
  | await
  deriving DecidableEq, Repr

/-- The destructor of a `ThreadPoolImpl`, which begins with `Stop`. -/
inductive Teardown where
  | stopSoon
  | join
  | acquire
  | unregister
  | release
  | free
  deriving DecidableEq, Repr

/-- Where the main thread is. -/
inductive Main where
  | setup (id : Nat) (place : Setup)
  /-- `InitializeThreadPool` has returned. -/
  | serving
  | teardown (id : Nat) (place : Teardown)
  /-- `main_message_loop_.reset()`. -/
  | freeLoop
  | ended
  deriving DecidableEq, Repr

/-- A thread that posts: one of the pool, or one outside it, with a message loop or without. -/
inductive Caller where
  | pool (id : Nat)
  | foreign (hasLoop : Bool)
  deriving DecidableEq, Repr

/-- `message_loop() == cur_message_loop` for entry `i`.  No two threads have the same loop, but a
thread without one has the null pointer. -/
def Caller.sameLoop (c : Caller) (i : Nat) (s : Slot) : Bool :=
  match c with
  | .pool id => i = id && s.messageLoop
  | .foreign hasLoop => !hasLoop && !s.messageLoop

inductive Fault where
  /-- An access through an entry. -/
  | thread
  /-- A message loop that has been destroyed. -/
  | loop
  deriving DecidableEq, Repr

/-- Where a `PostTaskHelper` is. -/
inductive Pc where
  /-- `globals.threads[i]` in `GetCurrentThreadIdentifier`. -/
  | test (i : Nat)
  | compare (i : Nat)
  /-- `*identifier = globals.threads[i]->identifier_`. -/
  | identify (i : Nat)
  | acquire
  /-- `globals.threads[identifier]`. -/
  | load (locked : Bool)
  /-- `globals.threads[identifier]->message_loop()`. -/
  | deref (locked : Bool)
  /-- `message_loop->PostDelayedTask` or `PostNonNestableDelayedTask`. -/
  | post (locked : Bool)
  | release (result : Bool)
  | returned (result : Bool)
  | fault (what : Fault)
  deriving DecidableEq, Repr

structure Post where
  caller : Caller
  target : Nat
  /-- It was begun before `InitializeThreadPool` returned. -/
  early : Bool
  pc : Pc := .test 0
  deriving DecidableEq, Repr

namespace Post

def busy (p : Post) : Bool :=
  match p.pc with
  | .returned _ => false
  | _ => true

/-- From a thread of the pool to one that outlives it, or to itself. -/
def downward (p : Post) : Bool :=
  match p.caller with
  | .pool c => p.target ≤ c
  | .foreign _ => false

/-- Holding the lock. -/
def holds (p : Post) : Bool :=
  match p.pc with
  | .load locked | .deref locked | .post locked => locked
  | .release _ => true
  | _ => false

/-- After the last access to the target. -/
def leave (locked result : Bool) : Pc := if locked then .release result else .returned result

/-- The next step of `PostTaskHelper`: the lock after it, and what comes then. -/
def next (p : Post) (slots : Nat → Slot) (lock : Bool) : Option (Bool × Pc) :=
  match p.pc with
  | .test i =>
    if i < idCount then
      some (lock, if (slots i).registered then .compare i else .test (i + 1))
    else some (lock, .acquire)
  | .compare i =>
    if (slots i).readable then
      some (lock, if p.caller.sameLoop i (slots i) then .identify i else .test (i + 1))
    else some (lock, .fault .thread)
  | .identify i =>
    if (slots i).readable then
      -- `target_thread_outlives_current`
      some (lock, if p.target ≤ i then .load false else .acquire)
    else some (lock, .fault .thread)
  | .acquire => if lock then none else some (true, .load true)
  | .load locked =>
    some (lock, if (slots p.target).registered then .deref locked else leave locked false)
  | .deref locked =>
    if (slots p.target).readable then
      some (lock, if (slots p.target).messageLoop then .post locked else leave locked false)
    else some (lock, .fault .thread)
  | .post locked =>
    some (lock, if (slots p.target).loopAlive then leave locked true else .fault .loop)
  | .release result => some (false, .returned result)
  | .returned _ | .fault _ => none

end Post

end ThreadPool

open ThreadPool

/-- `ThreadPoolGlobals`, the threads of the pool, and all calls of `PostTaskHelper` so far. -/
structure ThreadPool where
  slots : Nat → Slot := fun _ => {}
  lock : Bool := false
  main : Main := .setup 0 .alloc
  posts : List Post := []

namespace ThreadPool

/-- A thread runs one task at a time: it is in a call that has not returned. -/
def posting (s : ThreadPool) (id : Nat) : Bool :=
  s.posts.any fun p => p.busy && p.caller = .pool id

def setSlot (s : ThreadPool) (id : Nat) (slot : Slot) : Nat → Slot :=
  Function.update s.slots id slot

/-- The next step of `InitializeThreadPool` or `DeinitializeThreadPool`. -/
def mainStep (s : ThreadPool) : Option ThreadPool :=
  match s.main with
  | .setup id .alloc =>
    -- the main thread has its message loop already, and starts no thread
    some { s with
      slots := s.setSlot id { object := true, stage := if id = 0 then .running else .absent }
      main := .setup id .acquire }
  | .setup id .acquire =>
    if s.lock then none else some { s with lock := true, main := .setup id .register }
  | .setup id .register =>
    some { s with
      slots := s.setSlot id { s.slots id with registered := true }, main := .setup id .release }
  | .setup id .release =>
    some { s with
      lock := false, main := if id = 0 then .setup 1 .alloc else .setup id .create }
  | .setup id .create =>
    some { s with
      slots := s.setSlot id { s.slots id with stage := .created }, main := .setup id .await }
  | .setup id .await =>
    if (s.slots id).stage = .running then
      some { s with main := if id + 1 < idCount then .setup (id + 1) .alloc else .serving }
    else none
  | .serving =>
    if s.posting 0 then none else some { s with main := .teardown (idCount - 1) .stopSoon }
  | .teardown id .stopSoon =>
    some { s with
      slots := s.setSlot id { s.slots id with quit := (s.slots id).messageLoop }
      main := .teardown id .join }
  | .teardown id .join =>
    if (s.slots id).stage = .ended then some { s with main := .teardown id .acquire } else none
  | .teardown id .acquire =>
    if s.lock then none else some { s with lock := true, main := .teardown id .unregister }
  | .teardown id .unregister =>
    some { s with
      slots := s.setSlot id { s.slots id with registered := false }
      main := .teardown id .release }
  | .teardown id .release => some { s with lock := false, main := .teardown id .free }
  | .teardown id .free =>
    some { s with
      slots := s.setSlot id { s.slots id with object := false }
      main :=
        if id = 0 then .freeLoop
        else if id = 1 then .teardown 0 .acquire
        else .teardown (id - 1) .stopSoon }
  | .freeLoop =>
    some { s with slots := s.setSlot 0 { s.slots 0 with stage := .ended }, main := .ended }
  | .ended => none

/-- The next step of `ThreadMain`, apart from the tasks it runs. -/
def threadStep (s : ThreadPool) (id : Nat) : Option ThreadPool :=
  let enter (stage : Stage) : ThreadPool :=
    { s with slots := s.setSlot id { s.slots id with stage } }
  match (s.slots id).stage with
  | .created => some (enter .looped)
  | .looped => some (enter .running)
  | .running => if (s.slots id).quit && !s.posting id then some (enter .left) else none
  | .left => some (enter .ended)
  | .absent | .ended => none

inductive Action where
  | main
  | thread (id : Nat)
  | begin (caller : Caller) (target : Nat)
  | post (k : Nat)
  deriving DecidableEq, Repr

/-- A thread of the pool can post when it runs tasks; the main thread does so between
`InitializeThreadPool` and `DeinitializeThreadPool`. -/
def canPost (s : ThreadPool) : Caller → Bool
  | .pool id =>
    (s.slots id).stage = .running && !s.posting id && (id ≠ 0 || s.main = .serving)
  | .foreign _ => true

def step : Machine ThreadPool Action := fun s a =>
  match a with
  | .main => s.mainStep
  | .thread id => s.threadStep id
  | .begin caller target =>
    if target < idCount && s.canPost caller then
      let early := match s.main with
        | .setup _ _ => true
        | _ => false
      some { s with posts := s.posts ++ [{ caller, target, early }] }
    else none
  | .post k => do
    let p ← s.posts[k]?
    let (lock, pc) ← p.next s.slots s.lock
    some { s with lock, posts := s.posts.set k { p with pc } }

/-! ## Where the slots are when the main thread is somewhere -/

namespace Main

/-- The entries below are up. -/
def level : Main → Nat
  | .setup id _ | .teardown id _ => id
  | .serving => idCount
  | .freeLoop | .ended => 0

def tearing : Main → Bool
  | .setup _ _ | .serving => false
  | _ => true

/-- Holding the lock. -/
def holds : Main → Bool
  | .setup _ .register | .setup _ .release | .teardown _ .unregister | .teardown _ .release => true
  | _ => false

/-- What is known of the entry the main thread works on. -/
def Here : Main → Slot → Prop
  | .setup id place, s =>
    id < idCount ∧
    match place with
    | .alloc => s = {}
    | .acquire | .register =>
      s = { object := true, stage := if id = 0 then .running else .absent }
    | .release =>
      s = { registered := true, object := true, stage := if id = 0 then .running else .absent }
    | .create => 0 < id ∧ s = { registered := true, object := true }
    | .await =>
      0 < id ∧ s = { registered := true, object := true, stage := s.stage } ∧
        (s.stage = .created ∨ s.stage = .looped ∨ s.stage = .running)
  | .serving, s => s = {}
  | .teardown id place, s =>
    id < idCount ∧
    match place with
    | .stopSoon => 0 < id ∧ s = .up
    | .join =>
      0 < id ∧ s = { registered := true, object := true, quit := true, stage := s.stage } ∧
        (s.stage = .running ∨ s.stage = .left ∨ s.stage = .ended)
    | .acquire | .unregister =>
      s = { (if id = 0 then .up else .gone : Slot) with registered := true, object := true }
    | .release | .free =>
      s = { (if id = 0 then .up else .gone : Slot) with registered := false, object := true }
  | .freeLoop, s => s = { stage := .running }
  | .ended, s => s = { stage := .ended }

end Main

/-- The slots are as the place of the main thread has them. -/
structure Arranged (m : Main) (slots : Nat → Slot) : Prop where
  below : ∀ i < m.level, slots i = .up
  here : m.Here (slots m.level)
  above : ∀ i, m.level < i → slots i = if m.tearing ∧ i < idCount then .gone else {}

theorem Arranged.frame {m n : Main} {slots : Nat → Slot} (h : Arranged m slots) {id : Nat}
    (hid : m.level = id) (hlevel : n.level = id) (htearing : n.tearing = m.tearing) {slot : Slot}
    (hhere : n.Here slot) : Arranged n (Function.update slots id slot) where
  below i hi := by
    rw [hlevel] at hi
    rw [Function.update_of_ne (Nat.ne_of_lt hi), h.below i (hid ▸ hi)]
  here := by rwa [hlevel, Function.update_self]
  above i hi := by
    rw [hlevel] at hi
    rw [Function.update_of_ne (Nat.ne_of_gt hi), htearing]
    exact h.above i (hid ▸ hi)

theorem Arranged.stay {m n : Main} {slots : Nat → Slot} (h : Arranged m slots)
    (hlevel : n.level = m.level) (htearing : n.tearing = m.tearing)
    (hhere : n.Here (slots m.level)) : Arranged n slots := by
  have hframe := h.frame rfl hlevel htearing hhere
  rwa [Function.update_eq_self] at hframe

theorem arranged_init : Arranged (.setup 0 .alloc) fun _ => {} where
  below i hi := absurd hi (Nat.not_lt_zero i)
  here := ⟨by decide, rfl⟩
  above i _ := by simp [Main.tearing]

/-- The thread is up, and the next one is made. -/
theorem Arranged.climb {m n : Main} {slots : Nat → Slot} (h : Arranged m slots)
    (hlevel : n.level = m.level + 1) (htearing : m.tearing = false)
    (htearing' : n.tearing = false) (hup : slots m.level = .up) (hhere : n.Here {}) :
    Arranged n slots where
  below i hi := by
    rcases Nat.lt_or_eq_of_le (Nat.le_of_lt_succ (hlevel ▸ hi)) with hi | rfl
    · exact h.below i hi
    · exact hup
  here := by
    have habove := h.above n.level (by omega)
    rw [htearing, if_neg (by simp)] at habove
    rwa [habove]
  above i hi := by
    have habove := h.above i (by omega)
    rw [htearing] at habove
    rwa [htearing']

/-- The thread is gone, and the one before it is next. -/
theorem Arranged.descend {m n : Main} {slots : Nat → Slot} (h : Arranged m slots) {id : Nat}
    (hid : m.level = id) (hlevel : n.level + 1 = id) (htearing : id < idCount → m.tearing = true)
    (htearing' : n.tearing = true) (hhere : n.Here .up) {slot : Slot}
    (hslot : slot = if id < idCount then .gone else {}) :
    Arranged n (Function.update slots id slot) where
  below i hi := by
    rw [Function.update_of_ne (by omega), h.below i (by omega)]
  here := by rwa [Function.update_of_ne (by omega), h.below n.level (by omega)]
  above i hi := by
    rw [htearing']
    rcases Nat.lt_or_eq_of_le (show id ≤ i by omega) with hi | rfl
    · rw [Function.update_of_ne (Nat.ne_of_gt hi), h.above i (hid ▸ hi)]
      by_cases hlt : i < idCount
      · rw [htearing (by omega)]
      · rw [if_neg (fun hand => hlt hand.2), if_neg (fun hand => hlt hand.2)]
    · rw [Function.update_self, hslot]
      simp

variable {s s' : ThreadPool}

/-- **The main thread keeps the slots in order.** -/
theorem arranged_mainStep (h : Arranged s.main s.slots) (hstep : s.mainStep = some s') :
    Arranged s'.main s'.slots := by
  rw [mainStep] at hstep
  split at hstep
  · next id hm =>
    rw [← Option.some_inj.1 hstep]
    rw [hm] at h
    have hhere : id < idCount ∧ s.slots id = {} := h.here
    exact h.frame (n := .setup id .acquire) rfl rfl rfl ⟨hhere.1, rfl⟩
  · next id hm =>
    split at hstep
    · exact nomatch hstep
    · rw [← Option.some_inj.1 hstep]
      rw [hm] at h
      exact h.stay rfl rfl h.here
  · next id hm =>
    rw [← Option.some_inj.1 hstep]
    rw [hm] at h
    have hhere : id < idCount ∧ s.slots id = { object := true, stage := _ } := h.here
    refine h.frame (n := .setup id .release) rfl rfl rfl ⟨hhere.1, ?_⟩
    rw [hhere.2]
  · next id hm =>
    rw [← Option.some_inj.1 hstep]
    rw [hm] at h
    have hhere : id < idCount ∧ s.slots id = { registered := true, object := true, stage := _ } :=
      h.here
    by_cases hid : id = 0
    · subst hid
      exact h.climb (n := .setup 1 .alloc) rfl rfl rfl hhere.2 ⟨by decide, rfl⟩
    · simp only [if_neg hid] at hhere ⊢
      exact h.stay rfl rfl ⟨hhere.1, Nat.pos_of_ne_zero hid, hhere.2⟩
  · next id hm =>
    rw [← Option.some_inj.1 hstep]
    rw [hm] at h
    have hhere : id < idCount ∧ 0 < id ∧ s.slots id = { registered := true, object := true } :=
      h.here
    refine h.frame (n := .setup id .await) rfl rfl rfl ⟨hhere.1, hhere.2.1, ?_, .inl rfl⟩
    rw [hhere.2.2]
  · next id hm =>
    split at hstep
    · next hrunning =>
      rw [← Option.some_inj.1 hstep]
      rw [hm] at h
      obtain ⟨hlt, -, hslot, -⟩ : id < idCount ∧ 0 < id ∧
        s.slots id = { registered := true, object := true, stage := (s.slots id).stage } ∧ _ :=
        h.here
      have hup : s.slots id = .up := by rw [hslot, hrunning, Slot.up]
      split
      · next hlt => exact h.climb rfl rfl rfl hup ⟨hlt, rfl⟩
      · next hge => exact h.climb (show idCount = id + 1 by omega) rfl rfl hup rfl
    · exact nomatch hstep
  · next hm =>
    split at hstep
    · exact nomatch hstep
    · rw [← Option.some_inj.1 hstep]
      rw [hm] at h
      have hnext := h.descend (n := .teardown (idCount - 1) .stopSoon) rfl rfl
        (fun hlt => absurd hlt (Nat.lt_irrefl _)) rfl ⟨by decide, by decide, rfl⟩ h.here
      rwa [Function.update_eq_self] at hnext
  · next id hm =>
    rw [← Option.some_inj.1 hstep]
    rw [hm] at h
    have hhere : id < idCount ∧ 0 < id ∧ s.slots id = .up := h.here
    refine h.frame (n := .teardown id .join) rfl rfl rfl ⟨hhere.1, hhere.2.1, ?_, .inl ?_⟩ <;>
      rw [hhere.2.2] <;> rfl
  · next id hm =>
    split at hstep
    · next hended =>
      rw [← Option.some_inj.1 hstep]
      rw [hm] at h
      obtain ⟨hlt, hpos, hslot, -⟩ : id < idCount ∧ 0 < id ∧
        s.slots id =
          { registered := true, object := true, quit := true, stage := (s.slots id).stage } ∧ _ :=
        h.here
      have hgone : s.slots id = { Slot.gone with registered := true, object := true } := by
        rw [hslot, hended, Slot.gone]
      refine h.stay rfl rfl ⟨hlt, ?_⟩
      rwa [if_neg (Nat.ne_of_gt hpos)]
    · exact nomatch hstep
  · next id hm =>
    split at hstep
    · exact nomatch hstep
    · rw [← Option.some_inj.1 hstep]
      rw [hm] at h
      exact h.stay rfl rfl h.here
  · next id hm =>
    rw [← Option.some_inj.1 hstep]
    rw [hm] at h
    have hhere : id < idCount ∧ s.slots id =
        { (if id = 0 then .up else .gone : Slot) with registered := true, object := true } :=
      h.here
    refine h.frame (n := .teardown id .release) rfl rfl rfl ⟨hhere.1, ?_⟩
    rw [hhere.2]
  · next id hm =>
    rw [← Option.some_inj.1 hstep]
    rw [hm] at h
    exact h.stay rfl rfl h.here
  · next id hm =>
    rw [← Option.some_inj.1 hstep]
    rw [hm] at h
    have hhere : id < idCount ∧ s.slots id =
        { (if id = 0 then .up else .gone : Slot) with registered := false, object := true } :=
      h.here
    rcases Nat.eq_zero_or_pos id with rfl | hpos
    · refine h.frame (n := .freeLoop) rfl rfl rfl ?_
      rw [hhere.2]
      rfl
    · have hslot : { s.slots id with object := false } = Slot.gone := by
        rw [hhere.2, if_neg (Nat.ne_of_gt hpos)]
        rfl
      rw [if_neg (Nat.ne_of_gt hpos)]
      split
      · next hone =>
        subst hone
        exact h.descend (n := .teardown 0 .acquire) rfl rfl (fun _ => rfl) rfl
          ⟨by decide, rfl⟩ (hslot.trans (if_pos hhere.1).symm)
      · next hone =>
        exact h.descend (n := .teardown (id - 1) .stopSoon) rfl (Nat.sub_add_cancel hpos)
          (fun _ => rfl) rfl ⟨by omega, by omega, rfl⟩ (hslot.trans (if_pos hhere.1).symm)
  · next hm =>
    rw [← Option.some_inj.1 hstep]
    rw [hm] at h
    have hhere : s.slots 0 = { stage := .running } := h.here
    refine h.frame (n := .ended) rfl rfl rfl ?_
    rw [hhere]
    rfl
  · exact nomatch hstep

/-- What a step of `ThreadMain` does. -/
theorem threadStep_cases {id : Nat} (hstep : s.threadStep id = some s') :
    ∃ stage, s' = { s with slots := Function.update s.slots id { s.slots id with stage } } ∧
      ((s.slots id).stage = .created ∧ stage = .looped ∨
        (s.slots id).stage = .looped ∧ stage = .running ∨
        (s.slots id).stage = .running ∧ (s.slots id).quit ∧ s.posting id = false ∧ stage = .left ∨
        (s.slots id).stage = .left ∧ stage = .ended) := by
  rw [threadStep] at hstep
  split at hstep
  · next hstage => exact ⟨.looped, (Option.some_inj.1 hstep).symm, .inl ⟨hstage, rfl⟩⟩
  · next hstage => exact ⟨.running, (Option.some_inj.1 hstep).symm, .inr (.inl ⟨hstage, rfl⟩)⟩
  · next hstage =>
    split at hstep
    · next hand =>
      rw [Bool.and_eq_true, Bool.not_eq_true'] at hand
      exact ⟨.left, (Option.some_inj.1 hstep).symm,
        .inr (.inr (.inl ⟨hstage, hand.1, hand.2, rfl⟩))⟩
    · exact nomatch hstep
  · next hstage => exact ⟨.ended, (Option.some_inj.1 hstep).symm, .inr (.inr (.inr ⟨hstage, rfl⟩))⟩
  · exact nomatch hstep
  · exact nomatch hstep

/-- A thread gets on by itself only when the main thread waits for it. -/
theorem Main.Here.waits {m : Main} {slot : Slot} (h : m.Here slot)
    (hstage : slot.stage = .created ∨ slot.stage = .looped ∨
      slot.stage = .running ∧ slot.quit = true ∨ slot.stage = .left) :
    m = .setup m.level .await ∨ m = .teardown m.level .join := by
  rcases m with ⟨id, place⟩ | _ | ⟨id, place⟩ | _ | _
  · rcases place with _ | _ | _ | _ | _ | _
    case await => exact .inl rfl
    case create => rw [h.2.2] at hstage; simp at hstage
    all_goals
      rw [h.2] at hstage
      by_cases hid : id = 0 <;> simp [hid] at hstage
  · rw [show slot = {} from h] at hstage
    simp at hstage
  · rcases place with _ | _ | _ | _ | _ | _
    case join => exact .inr rfl
    case stopSoon => rw [h.2.2] at hstage; simp [Slot.up] at hstage
    all_goals
      rw [h.2] at hstage
      by_cases hid : id = 0 <;> simp [hid, Slot.up, Slot.gone] at hstage
  · rw [show slot = { stage := .running } from h] at hstage
    simp at hstage
  · rw [show slot = { stage := .ended } from h] at hstage
    simp at hstage

theorem waits_of_threadStep {id : Nat} (h : Arranged s.main s.slots)
    (hstep : s.threadStep id = some s') :
    s.main = .setup id .await ∨ s.main = .teardown id .join := by
  obtain ⟨stage, -, hcases⟩ := threadStep_cases hstep
  rcases Nat.lt_trichotomy id s.main.level with hlt | heq | hgt
  · rw [h.below id hlt] at hcases
    simp [Slot.up] at hcases
  · have hhere := h.here
    rw [← heq] at hhere
    have hwaits := hhere.waits (by tauto)
    rwa [← heq] at hwaits
  · rw [h.above id hgt] at hcases
    split at hcases <;> simp [Slot.gone] at hcases

theorem arranged_threadStep {id : Nat} (h : Arranged s.main s.slots)
    (hstep : s.threadStep id = some s') : Arranged s'.main s'.slots := by
  have hwaits := waits_of_threadStep h hstep
  obtain ⟨stage, rfl, hcases⟩ := threadStep_cases hstep
  rcases hwaits with hm | hm <;> rw [hm] at h ⊢
  · obtain ⟨hlt, hpos, hslot, hstage⟩ : id < idCount ∧ 0 < id ∧
      s.slots id = { registered := true, object := true, stage := (s.slots id).stage } ∧
      ((s.slots id).stage = .created ∨ (s.slots id).stage = .looped ∨
        (s.slots id).stage = .running) := h.here
    have hquit : (s.slots id).quit = false := by rw [hslot]
    refine h.frame (n := .setup id .await) rfl rfl rfl ⟨hlt, hpos, ?_, ?_⟩
    · rw [hslot]
    · rcases hstage with hstage | hstage | hstage <;> rw [hstage] at hcases <;>
        simp [hquit] at hcases ⊢ <;> tauto
  · obtain ⟨hlt, hpos, hslot, hstage⟩ : id < idCount ∧ 0 < id ∧
      s.slots id =
        { registered := true, object := true, quit := true, stage := (s.slots id).stage } ∧
      ((s.slots id).stage = .running ∨ (s.slots id).stage = .left ∨
        (s.slots id).stage = .ended) := h.here
    refine h.frame (n := .teardown id .join) rfl rfl rfl ⟨hlt, hpos, ?_, ?_⟩
    · rw [hslot]
    · rcases hstage with hstage | hstage | hstage <;> rw [hstage] at hcases <;>
        simp at hcases ⊢ <;> tauto

/-! ## What can be read of them -/

/-- The thread runs tasks that may post. -/
def Live (m : Main) (slots : Nat → Slot) (c : Nat) : Prop :=
  (slots c).stage = .running ∧ (c = 0 → m = .serving)

/-- An entry that is not null is that of an object. -/
theorem Arranged.readable {m : Main} {slots : Nat → Slot} (h : Arranged m slots) {i : Nat}
    (hi : (slots i).registered = true) : (slots i).readable = true := by
  rw [Slot.readable, hi, Bool.true_and]
  rcases Nat.lt_trichotomy i m.level with hlt | rfl | hgt
  · rw [h.below i hlt]
    rfl
  · have hhere := h.here
    generalize slots m.level = slot at hi hhere
    rcases m with ⟨id, place⟩ | _ | ⟨id, place⟩ | _ | _
    · rcases place with _ | _ | _ | _ | _ | _
      case await => rw [hhere.2.2.1]
      case create => rw [hhere.2.2]
      case release => rw [hhere.2]
      all_goals rw [hhere.2] at hi; simp at hi
    · rw [show slot = {} from hhere] at hi
      simp at hi
    · rcases place with _ | _ | _ | _ | _ | _
      case join => rw [hhere.2.2.1]
      case stopSoon => rw [hhere.2.2, Slot.up]
      all_goals rw [hhere.2]
    · rw [show slot = _ from hhere] at hi
      simp at hi
    · rw [show slot = _ from hhere] at hi
      simp at hi
  · rw [h.above i hgt] at hi
    split at hi <;> simp [Slot.gone] at hi

/-- **A thread that runs tasks finds all threads up that are to outlive it, and itself.** -/
theorem Arranged.live {m : Main} {slots : Nat → Slot} (h : Arranged m slots) {c : Nat}
    (hc : Live m slots c) {i : Nat} (hi : i ≤ c) :
    (slots i).registered = true ∧ (slots i).stage = .running := by
  obtain ⟨hstage, hserving⟩ := hc
  rcases Nat.lt_trichotomy c m.level with hlt | rfl | hgt
  · rw [h.below i (by omega)]
    exact ⟨rfl, rfl⟩
  · rcases Nat.lt_or_eq_of_le hi with hlt | rfl
    · rw [h.below i hlt]
      exact ⟨rfl, rfl⟩
    refine ⟨?_, hstage⟩
    have hhere := h.here
    generalize slots m.level = slot at hstage hhere
    rcases m with ⟨id, place⟩ | _ | ⟨id, place⟩ | _ | _
    · by_cases hid : id = 0
      · exact nomatch hserving hid
      · rcases place with _ | _ | _ | _ | _ | _
        case await => rw [hhere.2.2.1]
        case create => rw [hhere.2.2]
        all_goals rw [hhere.2] at hstage; simp [hid] at hstage
    · rw [show slot = {} from hhere] at hstage
      simp at hstage
    · by_cases hid : id = 0
      · exact nomatch hserving hid
      · rcases place with _ | _ | _ | _ | _ | _
        case join => rw [hhere.2.2.1]
        case stopSoon => rw [hhere.2.2, Slot.up]
        all_goals rw [hhere.2] at hstage; simp [hid, Slot.gone] at hstage
    · exact nomatch hserving rfl
    · exact nomatch hserving rfl
  · rw [h.above c hgt] at hstage
    split at hstage <;> simp [Slot.gone] at hstage

/-- Once its loop is gone, the pool is being taken down. -/
theorem Arranged.tearing_of_ended {m : Main} {slots : Nat → Slot} (h : Arranged m slots) {i : Nat}
    (hi : (slots i).stage = .left ∨ (slots i).stage = .ended) : m.tearing = true := by
  rcases Nat.lt_trichotomy i m.level with hlt | rfl | hgt
  · rw [h.below i hlt] at hi
    simp [Slot.up] at hi
  · have hhere := h.here
    generalize slots m.level = slot at hi hhere
    rcases m with ⟨id, place⟩ | _ | ⟨id, place⟩ | _ | _
    · rcases place with _ | _ | _ | _ | _ | _
      case await => rcases hhere.2.2.2 with hstage | hstage | hstage <;> simp [hstage] at hi
      case create => rw [hhere.2.2] at hi; simp at hi
      all_goals rw [hhere.2] at hi; by_cases hid : id = 0 <;> simp [hid] at hi
    · rw [show slot = {} from hhere] at hi
      simp at hi
    · rfl
    · rfl
    · rfl
  · rw [h.above i hgt] at hi
    by_cases htearing : m.tearing = true
    · exact htearing
    · rw [if_neg (fun hand => htearing hand.1)] at hi
      simp at hi

/-! ## The lock -/

/-- Who holds the lock: the main thread, or a post. -/
def holders (s : ThreadPool) : Nat := s.main.holds.toNat + s.posts.countP Post.holds

namespace Post

variable {p : Post} {slots : Nat → Slot} {lock lock' : Bool} {pc : Pc}

theorem holds_leave (p : Post) (locked result : Bool) :
    Post.holds { p with pc := leave locked result } = locked := by
  cases locked <;> rfl

/-- A step of a post leaves the lock alone, if need be with a fault, or takes it, or gives it
up. -/
theorem next_lock (hstep : p.next slots lock = some (lock', pc)) :
    lock' = lock ∧ (Post.holds { p with pc } = p.holds ∨
        (∃ what, pc = .fault what) ∧ Post.holds { p with pc } = false) ∨
      lock = false ∧ lock' = true ∧ p.holds = false ∧ Post.holds { p with pc } = true ∨
      p.holds = true ∧ lock' = false ∧ Post.holds { p with pc } = false := by
  rcases hpc : p.pc with i | i | i | _ | locked | locked | locked | result | result | what <;>
    simp only [next, hpc] at hstep
  case acquire =>
    split at hstep
    · exact nomatch hstep
    · next hlock =>
      obtain ⟨rfl, rfl⟩ := Prod.mk.inj (Option.some_inj.1 hstep)
      exact .inr (.inl ⟨by simpa using hlock, rfl, by simp [holds, hpc], rfl⟩)
  case load =>
    obtain ⟨rfl, rfl⟩ := Prod.mk.inj (Option.some_inj.1 hstep)
    refine .inl ⟨rfl, .inl ?_⟩
    split
    · simp [holds, hpc]
    · rw [holds_leave]
      simp [holds, hpc]
  case post =>
    obtain ⟨rfl, rfl⟩ := Prod.mk.inj (Option.some_inj.1 hstep)
    split
    · refine .inl ⟨rfl, .inl ?_⟩
      rw [holds_leave]
      simp [holds, hpc]
    · exact .inl ⟨rfl, .inr ⟨⟨_, rfl⟩, rfl⟩⟩
  case release =>
    obtain ⟨rfl, rfl⟩ := Prod.mk.inj (Option.some_inj.1 hstep)
    exact .inr (.inr ⟨by simp [holds, hpc], rfl, rfl⟩)
  case deref =>
    split at hstep <;> obtain ⟨rfl, rfl⟩ := Prod.mk.inj (Option.some_inj.1 hstep)
    · refine .inl ⟨rfl, .inl ?_⟩
      split
      · simp [holds, hpc]
      · rw [holds_leave]
        simp [holds, hpc]
    · exact .inl ⟨rfl, .inr ⟨⟨_, rfl⟩, rfl⟩⟩
  case returned => exact nomatch hstep
  case fault => exact nomatch hstep
  all_goals
    split at hstep <;> obtain ⟨rfl, rfl⟩ := Prod.mk.inj (Option.some_inj.1 hstep)
    · refine .inl ⟨rfl, .inl ?_⟩
      split <;> simp [holds, hpc]
    · exact .inl ⟨rfl, .inl (by simp [holds, hpc])⟩

end Post

/-- What a step of the main thread does to the lock and to the posts. -/
theorem mainStep_lock (hstep : s.mainStep = some s') :
    s'.posts = s.posts ∧
      (s'.lock = s.lock ∧ s'.main.holds = s.main.holds ∨
        s.lock = false ∧ s'.lock = true ∧ s.main.holds = false ∧ s'.main.holds = true ∨
        s.main.holds = true ∧ s'.lock = false ∧ s'.main.holds = false) := by
  rcases hm : s.main with ⟨id, place⟩ | _ | ⟨id, place⟩ | _ | _
  · cases place <;> simp only [mainStep, hm] at hstep
    case acquire =>
      split at hstep
      · exact nomatch hstep
      · next hlock =>
        rw [← Option.some_inj.1 hstep]
        simpa [Main.holds] using hlock
    case release =>
      rw [← Option.some_inj.1 hstep]
      split <;> simp [Main.holds]
    case await =>
      split at hstep
      · rw [← Option.some_inj.1 hstep]
        split <;> simp [Main.holds]
      · exact nomatch hstep
    all_goals
      rw [← Option.some_inj.1 hstep]
      simp [Main.holds]
  · simp only [mainStep, hm] at hstep
    split at hstep
    · exact nomatch hstep
    · rw [← Option.some_inj.1 hstep]
      simp [Main.holds]
  · cases place <;> simp only [mainStep, hm] at hstep
    case join =>
      split at hstep
      · rw [← Option.some_inj.1 hstep]
        simp [Main.holds]
      · exact nomatch hstep
    case acquire =>
      split at hstep
      · exact nomatch hstep
      · next hlock =>
        rw [← Option.some_inj.1 hstep]
        simpa [Main.holds] using hlock
    case free =>
      rw [← Option.some_inj.1 hstep]
      split
      · simp [Main.holds]
      · split <;> simp [Main.holds]
    all_goals
      rw [← Option.some_inj.1 hstep]
      simp [Main.holds]
  · simp only [mainStep, hm] at hstep
    rw [← Option.some_inj.1 hstep]
    simp [Main.holds]
  · simp [mainStep, hm] at hstep

/-- What a step of the main thread leaves of entry `i`: it is cleared under the lock only, and the
thread it is for does not change its stage, unless it is made or is the main thread at its end. -/
def Keeps (s : ThreadPool) (i : Nat) (slot : Slot) : Prop :=
  ((s.slots i).registered = true →
    slot.registered = true ∨ s.main.holds = true ∧ s.main.tearing = true) ∧
  (slot.stage = (s.slots i).stage ∨ (s.slots i).stage = .absent ∨
    i = 0 ∧ s.main.tearing = true ∧ slot.stage = .ended)

theorem keeps_refl (s : ThreadPool) (i : Nat) : s.Keeps i (s.slots i) := ⟨.inl, .inl rfl⟩

theorem keeps_update {id : Nat} {slot : Slot} (h : s.Keeps id slot) (i : Nat) :
    s.Keeps i (Function.update s.slots id slot i) := by
  rcases eq_or_ne i id with rfl | hne
  · rwa [Function.update_self]
  · rw [Function.update_of_ne hne]
    exact s.keeps_refl i

theorem mainStep_keeps (h : Arranged s.main s.slots) (hstep : s.mainStep = some s') (i : Nat) :
    s.Keeps i (s'.slots i) := by
  have hhere := h.here
  rcases hm : s.main with ⟨id, place⟩ | _ | ⟨id, place⟩ | _ | _ <;> rw [hm] at hhere
  · cases place <;> simp only [mainStep, hm] at hstep
    case alloc =>
      have hslot : s.slots id = {} := hhere.2
      rw [← Option.some_inj.1 hstep]
      refine keeps_update ?_ i
      exact ⟨by simp [hslot], .inr (.inl (by rw [hslot]))⟩
    case register =>
      rw [← Option.some_inj.1 hstep]
      refine keeps_update ?_ i
      exact ⟨fun _ => .inl rfl, .inl rfl⟩
    case create =>
      have hslot : s.slots id = { registered := true, object := true } := hhere.2.2
      rw [← Option.some_inj.1 hstep]
      refine keeps_update ?_ i
      exact ⟨.inl, .inr (.inl (by rw [hslot]))⟩
    case release =>
      rw [← Option.some_inj.1 hstep]
      exact s.keeps_refl i
    case acquire =>
      split at hstep
      · exact nomatch hstep
      · rw [← Option.some_inj.1 hstep]
        exact s.keeps_refl i
    case await =>
      split at hstep
      · rw [← Option.some_inj.1 hstep]
        exact s.keeps_refl i
      · exact nomatch hstep
  · simp only [mainStep, hm] at hstep
    split at hstep
    · exact nomatch hstep
    · rw [← Option.some_inj.1 hstep]
      exact s.keeps_refl i
  · have htearing : s.main.tearing = true := by rw [hm]; rfl
    cases place <;> simp only [mainStep, hm] at hstep
    case stopSoon | free =>
      rw [← Option.some_inj.1 hstep]
      refine keeps_update ?_ i
      exact ⟨.inl, .inl rfl⟩
    case unregister =>
      rw [← Option.some_inj.1 hstep]
      refine keeps_update ?_ i
      exact ⟨fun _ => .inr ⟨by rw [hm]; rfl, htearing⟩, .inl rfl⟩
    case release =>
      rw [← Option.some_inj.1 hstep]
      exact s.keeps_refl i
    case acquire =>
      split at hstep
      · exact nomatch hstep
      · rw [← Option.some_inj.1 hstep]
        exact s.keeps_refl i
    case join =>
      split at hstep
      · rw [← Option.some_inj.1 hstep]
        exact s.keeps_refl i
      · exact nomatch hstep
  · simp only [mainStep, hm] at hstep
    rw [← Option.some_inj.1 hstep]
    refine keeps_update ?_ i
    exact ⟨.inl, .inr (.inr ⟨rfl, by rw [hm]; rfl, rfl⟩)⟩
  · simp [mainStep, hm] at hstep

/-- Where the main thread goes. -/
theorem mainStep_main (hstep : s.mainStep = some s') :
    (s.main = .serving → s.posting 0 = false) ∧
      (s'.main.tearing = true ↔ s.main.tearing = true ∨ s.main = .serving) := by
  rcases hm : s.main with ⟨id, place⟩ | _ | ⟨id, place⟩ | _ | _
  · cases place <;> simp only [mainStep, hm] at hstep
    case release =>
      rw [← Option.some_inj.1 hstep]
      by_cases hid : id = 0 <;> simp [hid, Main.tearing]
    case await =>
      split at hstep
      · rw [← Option.some_inj.1 hstep]
        by_cases hid : id + 1 < idCount <;> simp [hid, Main.tearing]
      · exact nomatch hstep
    case acquire =>
      split at hstep
      · exact nomatch hstep
      · rw [← Option.some_inj.1 hstep]
        simp [Main.tearing]
    all_goals
      rw [← Option.some_inj.1 hstep]
      simp [Main.tearing]
  · simp only [mainStep, hm] at hstep
    split at hstep
    · exact nomatch hstep
    · next hposting =>
      rw [← Option.some_inj.1 hstep]
      simpa [Main.tearing] using hposting
  · cases place <;> simp only [mainStep, hm] at hstep
    case join =>
      split at hstep
      · rw [← Option.some_inj.1 hstep]
        simp [Main.tearing]
      · exact nomatch hstep
    case acquire =>
      split at hstep
      · exact nomatch hstep
      · rw [← Option.some_inj.1 hstep]
        simp [Main.tearing]
    case free =>
      rw [← Option.some_inj.1 hstep]
      by_cases h0 : id = 0 <;> by_cases h1 : id = 1 <;> simp [h0, h1, Main.tearing]
    all_goals
      rw [← Option.some_inj.1 hstep]
      simp [Main.tearing]
  · simp only [mainStep, hm] at hstep
    rw [← Option.some_inj.1 hstep]
    simp [Main.tearing]
  · simp [mainStep, hm] at hstep

theorem Arranged.lt_idCount {m : Main} {slots : Nat → Slot} (h : Arranged m slots) {i : Nat}
    (hi : (slots i).registered = true) : i < idCount := by
  have hle : m.level ≤ idCount := by
    have hhere := h.here
    rcases m with ⟨id, place⟩ | _ | ⟨id, place⟩ | _ | _
    · exact Nat.le_of_lt hhere.1
    · exact Nat.le.refl
    · exact Nat.le_of_lt hhere.1
    · exact Nat.zero_le _
    · exact Nat.zero_le _
  rcases Nat.lt_trichotomy i m.level with hlt | rfl | hgt
  · omega
  · refine Nat.lt_of_le_of_ne hle fun heq => ?_
    have hhere := h.here
    generalize slots m.level = slot at hi hhere
    rcases m with ⟨id, place⟩ | _ | ⟨id, place⟩ | _ | _
    · exact Nat.ne_of_lt hhere.1 heq
    · rw [show slot = {} from hhere] at hi
      simp at hi
    · exact Nat.ne_of_lt hhere.1 heq
    · exact nomatch heq
    · exact nomatch heq
  · rw [h.above i hgt] at hi
    split at hi <;> simp [Slot.gone] at hi

/-! ## Posts of the threads of the pool -/

/-- How far a post of thread `c` is, and what it has found. -/
def Pc.Sound (m : Main) (slots : Nat → Slot) (c target : Nat) : Pc → Prop
  | .test i | .compare i => i ≤ c
  | .identify i => i = c
  | .acquire | .release _ => c < target
  | .load locked => locked = true ↔ c < target
  | .deref locked => (locked = true ↔ c < target) ∧ (slots target).registered = true
  | .post locked => (locked = true ↔ c < target) ∧ (slots target).started = true
  | .returned result => target ≤ c → result = true
  | .fault what => c < target ∧ what = .loop ∧ m.tearing = true

def Post.Sound (m : Main) (slots : Nat → Slot) (c : Nat) (p : Post) : Prop :=
  (p.busy = true → Live m slots c) ∧ p.pc.Sound m slots c p.target

theorem Post.Sound.frame {m m' : Main} {slots slots' : Nat → Slot} {c : Nat} {p : Post}
    (h : p.Sound m slots c) (h' : Arranged m' slots')
    (hlive : p.busy = true → Live m slots c → Live m' slots' c)
    (hregistered : p.holds = true → (slots p.target).registered = true →
      (slots' p.target).registered = true)
    (hstarted : (slots p.target).started = true → (slots' p.target).started = true)
    (htearing : m.tearing = true → m'.tearing = true) : p.Sound m' slots' c := by
  obtain ⟨hbusy, hpc⟩ := h
  have hbusy' : p.busy = true → Live m' slots' c := fun hp => hlive hp (hbusy hp)
  refine ⟨hbusy', ?_⟩
  rcases hp : p.pc with i | i | i | _ | locked | locked | locked | result | result | what <;>
    rw [hp] at hpc
  case deref =>
    show _ ∧ _
    refine ⟨hpc.1, ?_⟩
    by_cases hlt : c < p.target
    · exact hregistered (by rw [Post.holds, hp]; exact hpc.1.2 hlt) hpc.2
    · exact (h'.live (hbusy' (by rw [Post.busy, hp])) (Nat.le_of_not_lt hlt)).1
  case post => exact ⟨hpc.1, hstarted hpc.2⟩
  case fault => exact ⟨hpc.1, hpc.2.1, htearing hpc.2.2⟩
  all_goals exact hpc

/-- **A post of a thread of the pool** finds that thread and none after it. -/
theorem Post.Sound.next {m : Main} {slots : Nat → Slot} {c : Nat} {p : Post} (h : Arranged m slots)
    (hcaller : p.caller = .pool c) (hsound : p.Sound m slots c) {lock lock' : Bool} {pc : Pc}
    (hstep : p.next slots lock = some (lock', pc)) : Post.Sound m slots c { p with pc } := by
  have hbusy : p.busy = true := by
    rw [Post.next] at hstep
    rw [Post.busy]
    split
    · next hpc => simp [hpc] at hstep
    · rfl
  have hlive := hsound.1 hbusy
  have hpc := hsound.2
  refine ⟨fun _ => hlive, show pc.Sound m slots c p.target from ?_⟩
  have hown : p.target ≤ c → (slots p.target).registered = true ∧
      (slots p.target).messageLoop = true := fun hle =>
    ⟨(h.live hlive hle).1, by simp [Slot.messageLoop, (h.live hlive hle).2]⟩
  rcases hp : p.pc with i | i | i | _ | locked | locked | locked | result | result | what <;>
    rw [hp] at hpc <;> simp only [Post.next, hp] at hstep
  case test =>
    have hregistered := (h.live hlive hpc).1
    rw [if_pos (h.lt_idCount hregistered), if_pos hregistered] at hstep
    obtain ⟨-, rfl⟩ := Prod.mk.inj (Option.some_inj.1 hstep)
    exact hpc
  case compare =>
    rw [if_pos (h.readable (h.live hlive hpc).1)] at hstep
    obtain ⟨-, rfl⟩ := Prod.mk.inj (Option.some_inj.1 hstep)
    by_cases hi : i = c
    · subst hi
      have hloop : (slots i).messageLoop = true := by
        simp [Slot.messageLoop, (h.live hlive hpc).2]
      simp [hcaller, Caller.sameLoop, hloop, Pc.Sound]
    · simp only [hcaller, Caller.sameLoop, hi, decide_false, Bool.false_and, Bool.false_eq_true,
        if_false]
      exact Nat.lt_of_le_of_ne hpc hi
  case identify =>
    obtain rfl : i = c := hpc
    show Pc.Sound m slots i p.target pc
    rw [if_pos (h.readable (h.live hlive Nat.le.refl).1)] at hstep
    obtain ⟨-, rfl⟩ := Prod.mk.inj (Option.some_inj.1 hstep)
    split
    · next hle => simpa [Pc.Sound] using hle
    · next hgt => exact Nat.lt_of_not_le hgt
  case acquire =>
    split at hstep
    · exact nomatch hstep
    · obtain ⟨-, rfl⟩ := Prod.mk.inj (Option.some_inj.1 hstep)
      exact iff_of_true rfl hpc
  case load =>
    obtain ⟨-, rfl⟩ := Prod.mk.inj (Option.some_inj.1 hstep)
    split
    · next hregistered => exact ⟨hpc, hregistered⟩
    · next hregistered =>
      cases locked
      · have hle : p.target ≤ c := Nat.le_of_not_lt fun hlt => nomatch hpc.2 hlt
        exact absurd (hown hle).1 hregistered
      · exact hpc.1 rfl
  case deref =>
    rw [if_pos (h.readable hpc.2)] at hstep
    obtain ⟨-, rfl⟩ := Prod.mk.inj (Option.some_inj.1 hstep)
    split
    · next hloop => exact ⟨hpc.1, by simp [Slot.started, Slot.loopAlive, hloop]⟩
    · next hloop =>
      cases locked
      · have hle : p.target ≤ c := Nat.le_of_not_lt fun hlt => nomatch hpc.1.2 hlt
        exact absurd (hown hle).2 hloop
      · exact hpc.1.1 rfl
  case post =>
    obtain ⟨-, rfl⟩ := Prod.mk.inj (Option.some_inj.1 hstep)
    split
    · cases locked
      · exact fun _ => rfl
      · exact hpc.1.1 rfl
    · next halive =>
      have hended : (slots p.target).stage = .ended := by
        simpa [Slot.started, halive] using hpc.2
      refine ⟨?_, rfl, h.tearing_of_ended (.inr hended)⟩
      by_contra hle
      exact halive (by simp [Slot.loopAlive, (hown (Nat.le_of_not_lt hle)).2])
  case release =>
    obtain ⟨-, rfl⟩ := Prod.mk.inj (Option.some_inj.1 hstep)
    exact fun hle => absurd hpc (Nat.not_lt_of_le hle)
  case returned => exact nomatch hstep
  case fault => exact nomatch hstep

/-- What holds in all states, whatever posts there are. -/
structure Inv (s : ThreadPool) : Prop where
  arranged : Arranged s.main s.slots
  /-- The lock has one holder at most, and none when it is free. -/
  exclusive : s.holders ≤ s.lock.toNat
  sound : ∀ p ∈ s.posts, ∀ c, p.caller = .pool c → p.Sound s.main s.slots c

theorem posting_iff {id : Nat} :
    s.posting id = true ↔ ∃ p ∈ s.posts, p.busy = true ∧ p.caller = .pool id := by
  simp [posting]

theorem Inv.of_main (h : s.Inv) (hstep : s.mainStep = some s') : s'.Inv := by
  obtain ⟨hposts, hlock⟩ := mainStep_lock hstep
  obtain ⟨hserving, htearing⟩ := mainStep_main hstep
  have harranged := arranged_mainStep h.arranged hstep
  have hexclusive := h.exclusive
  refine ⟨harranged, ?_, fun p hp c hcaller => ?_⟩
  · rw [holders] at hexclusive ⊢
    rw [hposts]
    rcases hlock with ⟨h₁, h₂⟩ | ⟨h₁, h₂, h₃, h₄⟩ | ⟨h₁, h₂, h₃⟩
    · rwa [h₁, h₂]
    · rw [h₁, h₃] at hexclusive
      rw [h₂, h₄]
      simp only [Bool.toNat_false, Bool.toNat_true] at hexclusive ⊢
      omega
    · rw [h₁] at hexclusive
      have := s.lock.toNat_le
      simp only [h₂, h₃, Bool.toNat_false, Bool.toNat_true] at hexclusive ⊢
      omega
  · rw [hposts] at hp
    refine (h.sound p hp c hcaller).frame harranged (fun hbusy hlive => ?_)
      (fun hholds hregistered => ?_) (fun hstarted => ?_) fun ht => htearing.2 (.inl ht)
    · have hpos : c ≠ 0 := by
        rintro rfl
        have hposting := hserving (hlive.2 rfl)
        rw [posting_iff.2 ⟨p, hp, hbusy, hcaller⟩] at hposting
        exact nomatch hposting
      refine ⟨?_, fun h0 => absurd h0 hpos⟩
      rcases (mainStep_keeps h.arranged hstep c).2 with hsame | habsent | ⟨h0, -, -⟩
      · exact hsame.trans hlive.1
      · exact nomatch hlive.1.symm.trans habsent
      · exact absurd h0 hpos
    · rcases (mainStep_keeps h.arranged hstep p.target).1 hregistered with hkept | ⟨hmain, -⟩
      · exact hkept
      · have hcount : 0 < s.posts.countP Post.holds := List.countP_pos_iff.2 ⟨p, hp, hholds⟩
        rw [holders, hmain] at hexclusive
        have := s.lock.toNat_le
        simp only [Bool.toNat_true] at hexclusive
        omega
    · rcases (mainStep_keeps h.arranged hstep p.target).2 with hsame | habsent | ⟨-, -, hended⟩
      · simpa [Slot.started, Slot.loopAlive, Slot.messageLoop, hsame] using hstarted
      · simp [Slot.started, Slot.loopAlive, Slot.messageLoop, habsent] at hstarted
      · simp [Slot.started, hended]

theorem Inv.of_thread (h : s.Inv) {id : Nat} (hstep : s.threadStep id = some s') : s'.Inv := by
  have harranged := arranged_threadStep h.arranged hstep
  obtain ⟨stage, hs', hcases⟩ := threadStep_cases hstep
  have hself : s'.slots id = { s.slots id with stage } := by
    rw [hs']
    exact Function.update_self ..
  have hother : ∀ i, i ≠ id → s'.slots i = s.slots i := fun i hne => by
    rw [hs']
    exact Function.update_of_ne hne ..
  have hmain : s'.main = s.main := by rw [hs']
  have hposts : s'.posts = s.posts := by rw [hs']
  refine ⟨harranged, by rw [hs']; exact h.exclusive, fun p hp c hcaller => ?_⟩
  rw [hposts] at hp
  refine (h.sound p hp c hcaller).frame harranged (fun hbusy hlive => ⟨?_, hmain ▸ hlive.2⟩)
    (fun _ hregistered => ?_) (fun hstarted => ?_) fun ht => hmain ▸ ht
  · rcases eq_or_ne c id with rfl | hne
    · have hposting : s.posting c = true := posting_iff.2 ⟨p, hp, hbusy, hcaller⟩
      rw [hlive.1, hposting] at hcases
      simp at hcases
    · rw [hother c hne]
      exact hlive.1
  · rcases eq_or_ne p.target id with heq | hne
    · rw [heq] at hregistered ⊢
      rwa [hself]
    · rwa [hother p.target hne]
  · rcases eq_or_ne p.target id with heq | hne
    · rw [heq] at hstarted ⊢
      rw [hself]
      rcases hcases with ⟨hstage, rfl⟩ | ⟨hstage, rfl⟩ | ⟨hstage, -, -, rfl⟩ | ⟨hstage, rfl⟩
      · simp [Slot.started, Slot.loopAlive, Slot.messageLoop, hstage] at hstarted
      · rfl
      · rfl
      · rfl
    · rwa [hother p.target hne]

theorem Inv.of_begin (h : s.Inv) {caller : Caller} {target : Nat} {early : Bool}
    (hcan : s.canPost caller = true) :
    Inv { s with posts := s.posts ++ [{ caller, target, early }] } := by
  refine ⟨h.arranged, ?_, fun p hp c hcaller => ?_⟩
  · rw [holders, List.countP_append]
    exact h.exclusive
  · rcases List.mem_append.1 hp with hp | hp
    · exact h.sound p hp c hcaller
    · obtain rfl := List.mem_singleton.1 hp
      obtain rfl : caller = .pool c := hcaller
      simp only [canPost, Bool.and_eq_true, decide_eq_true_eq, Bool.or_eq_true, ne_eq] at hcan
      exact ⟨fun _ => ⟨hcan.1.1, fun h0 => hcan.2.resolve_left fun hne => hne h0⟩, Nat.zero_le c⟩

theorem Inv.of_post (h : s.Inv) {k : Nat} {p : Post} (hk : s.posts[k]? = some p) {lock : Bool}
    {pc : Pc} (hnext : p.next s.slots s.lock = some (lock, pc)) :
    Inv { s with lock, posts := s.posts.set k { p with pc } } := by
  obtain ⟨hlt, hget⟩ := List.getElem?_eq_some_iff.1 hk
  refine ⟨h.arranged, ?_, fun q hq c hcaller => ?_⟩
  · have hexclusive := h.exclusive
    have hheld : p.holds = true → 0 < s.posts.countP Post.holds := fun hp =>
      List.countP_pos_iff.2 ⟨p, List.mem_of_getElem? hk, hp⟩
    have hle := s.lock.toNat_le
    rw [holders] at hexclusive
    show s.main.holds.toNat + (s.posts.set k { p with pc }).countP Post.holds ≤ lock.toNat
    rw [List.countP_set hlt, hget]
    rcases Post.next_lock hnext with ⟨rfl, hsame⟩ | ⟨h₁, rfl, h₃, h₄⟩ | ⟨h₁, rfl, h₃⟩
    · have himp : Post.holds { p with pc } = true → p.holds = true := fun hq => by
        rcases hsame with hsame | ⟨-, hnone⟩
        · exact hsame ▸ hq
        · exact nomatch hq.symm.trans hnone
      by_cases hp : p.holds = true
      · have := hheld hp
        rw [if_pos hp]
        split <;> omega
      · rw [if_neg hp, if_neg fun hq => hp (himp hq)]
        omega
    · rw [h₁, Bool.toNat_false] at hexclusive
      rw [h₃, h₄, if_neg Bool.false_ne_true, if_pos rfl, Bool.toNat_true]
      omega
    · have := hheld h₁
      rw [if_pos h₁, h₃, if_neg Bool.false_ne_true, Bool.toNat_false]
      omega
  · rcases List.mem_or_eq_of_mem_set hq with hq | rfl
    · exact h.sound q hq c hcaller
    · exact Post.Sound.next (p := p) h.arranged hcaller
        (h.sound p (List.mem_of_getElem? hk) c hcaller) hnext

theorem inv_init : Inv {} where
  arranged := arranged_init
  exclusive := Nat.le.refl
  sound := fun _ hp => absurd hp List.not_mem_nil

/-- Any step of anyone keeps it. -/
theorem inv_step (s : ThreadPool) (a : Action) (s' : ThreadPool) (h : s.Inv)
    (hstep : step s a = some s') : s'.Inv := by
  rcases a with _ | id | ⟨caller, target⟩ | k
  · exact h.of_main hstep
  · exact h.of_thread hstep
  · simp only [step] at hstep
    split at hstep
    · next hand =>
      rw [Bool.and_eq_true] at hand
      rw [← Option.some_inj.1 hstep]
      exact h.of_begin hand.2
    · exact nomatch hstep
  · obtain ⟨p, hk, hstep⟩ := Option.bind_eq_some_iff.1 hstep
    obtain ⟨⟨lock, pc⟩, hnext, hstep⟩ := Option.bind_eq_some_iff.1 hstep
    rw [← Option.some_inj.1 hstep]
    exact h.of_post hk hnext

end ThreadPool

end Dcfpe.Base
