import Dcfpe.Base.ThreadPool

/-!
# Taking the thread pool down

What is safe for posts upward and from outside the pool is safe outside `DeinitializeThreadPool`
only.  In a calm run no such post is under way while the pool is taken down.  Then nothing goes
wrong in any interleaving in which all threads could be made, posts that begin after
`InitializeThreadPool` return true, and the teardown comes to its end.
-/

set_option autoImplicit false

namespace Dcfpe.Base

namespace ThreadPool

/-- A post that is not downward neither begins during the teardown nor lasts until then. -/
def Calm (s : ThreadPool) : Action → Prop
  | .main => s.main = .serving → ∀ p ∈ s.posts, p.busy = true → p.downward = true
  | .begin caller target =>
    s.main.tearing = false ∨ Post.downward { caller, target, early := false } = true
  | .thread _ | .post _ => True

instance (s : ThreadPool) (a : Action) : Decidable (s.Calm a) := by
  cases a <;> unfold Calm <;> infer_instance

/-- How far a post is, and what it has found. -/
def Pc.Quiet (slots : Nat → Slot) (target : Nat) (early : Bool) : Pc → Prop
  | .compare i | .identify i => (slots i).registered = true
  | .deref _ => (slots target).registered = true
  | .post _ => (slots target).messageLoop = true
  | .release result | .returned result => early = false → result = true
  | .fault _ => False
  | .test _ | .acquire | .load _ => True

/-- A post that is not downward, in a calm run. -/
def Post.Quiet (m : Main) (slots : Nat → Slot) (p : Post) : Prop :=
  p.target < idCount ∧
  (p.busy = true → m.tearing = false ∧ (p.early = false → m = .serving)) ∧
  p.pc.Quiet slots p.target p.early

theorem Pc.quiet_leave {slots : Nat → Slot} {target : Nat} {early : Bool} (locked : Bool)
    {result : Bool} (h : early = false → result = true) :
    (Post.leave locked result).Quiet slots target early := by
  cases locked <;> exact h

theorem Post.busy_of_next {p : Post} {slots : Nat → Slot} {lock : Bool} {next : Bool × Pc}
    (hstep : p.next slots lock = some next) : p.busy = true := by
  rw [Post.next] at hstep
  rw [Post.busy]
  split
  · next hpc => simp [hpc] at hstep
  · rfl

theorem Post.Quiet.next {m : Main} {slots : Nat → Slot} {p : Post} (h : Arranged m slots)
    (hquiet : p.Quiet m slots) {lock lock' : Bool} {pc : Pc}
    (hstep : p.next slots lock = some (lock', pc)) : Post.Quiet m slots { p with pc } := by
  obtain ⟨htarget, hbusy, hpc⟩ := hquiet
  obtain ⟨htearing, hserving⟩ := hbusy (Post.busy_of_next hstep)
  refine ⟨htarget, fun _ => ⟨htearing, hserving⟩, show pc.Quiet slots p.target p.early from ?_⟩
  have hup : p.early = false → slots p.target = .up := fun hearly =>
    h.below p.target (hserving hearly ▸ htarget)
  rcases hp : p.pc with i | i | i | _ | locked | locked | locked | result | result | what <;>
    rw [hp] at hpc <;> simp only [Post.next, hp] at hstep
  case test =>
    split at hstep <;> obtain ⟨-, rfl⟩ := Prod.mk.inj (Option.some_inj.1 hstep)
    · split
      · next hregistered => exact hregistered
      · trivial
    · trivial
  case compare =>
    rw [if_pos (h.readable hpc)] at hstep
    obtain ⟨-, rfl⟩ := Prod.mk.inj (Option.some_inj.1 hstep)
    split
    · exact hpc
    · trivial
  case identify =>
    rw [if_pos (h.readable hpc)] at hstep
    obtain ⟨-, rfl⟩ := Prod.mk.inj (Option.some_inj.1 hstep)
    split <;> trivial
  case acquire =>
    split at hstep
    · simp at hstep
    · obtain ⟨-, rfl⟩ := Prod.mk.inj (Option.some_inj.1 hstep)
      trivial
  case load =>
    obtain ⟨-, rfl⟩ := Prod.mk.inj (Option.some_inj.1 hstep)
    split
    · next hregistered => exact hregistered
    · next hnot =>
      refine Pc.quiet_leave locked fun hearly => absurd ?_ hnot
      rw [hup hearly]
      rfl
  case deref =>
    rw [if_pos (h.readable hpc)] at hstep
    obtain ⟨-, rfl⟩ := Prod.mk.inj (Option.some_inj.1 hstep)
    split
    · next hloop => exact hloop
    · next hnot =>
      refine Pc.quiet_leave locked fun hearly => absurd ?_ hnot
      rw [hup hearly]
      rfl
  case post =>
    have halive : (slots p.target).loopAlive = true := by rw [Slot.loopAlive, hpc, Bool.true_or]
    rw [if_pos halive] at hstep
    obtain ⟨-, rfl⟩ := Prod.mk.inj (Option.some_inj.1 hstep)
    exact Pc.quiet_leave locked fun _ => rfl
  case release =>
    obtain ⟨-, rfl⟩ := Prod.mk.inj (Option.some_inj.1 hstep)
    exact hpc
  case returned => simp at hstep
  case fault => simp at hstep

theorem Post.Quiet.frame {m m' : Main} {slots slots' : Nat → Slot} {p : Post}
    (h : p.Quiet m slots)
    (hbusy : p.busy = true → m.tearing = false → (p.early = false → m = .serving) →
      m'.tearing = false ∧ (p.early = false → m' = .serving))
    (hregistered : m'.tearing = false → ∀ i, (slots i).registered = true →
      (slots' i).registered = true)
    (hloop : m'.tearing = false → ∀ i, (slots i).messageLoop = true →
      (slots' i).messageLoop = true) : p.Quiet m' slots' := by
  obtain ⟨htarget, hp, hpc⟩ := h
  have hp' : p.busy = true → m'.tearing = false ∧ (p.early = false → m' = .serving) :=
    fun hb => hbusy hb (hp hb).1 (hp hb).2
  refine ⟨htarget, hp', ?_⟩
  rcases hq : p.pc with i | i | i | _ | locked | locked | locked | result | result | what <;>
    rw [hq] at hpc <;> rw [Post.busy, hq] at hp'
  case compare => exact hregistered (hp' rfl).1 _ hpc
  case identify => exact hregistered (hp' rfl).1 _ hpc
  case deref => exact hregistered (hp' rfl).1 _ hpc
  case post => exact hloop (hp' rfl).1 _ hpc
  all_goals exact hpc

variable {s s' : ThreadPool}

/-- What holds in the states of a calm run. -/
structure CalmInv (s : ThreadPool) : Prop extends Inv s where
  quiet : ∀ p ∈ s.posts, p.downward = false → p.Quiet s.main s.slots
  /-- Who takes the lock has it until it gives it up. -/
  held : s.holders = s.lock.toNat

theorem Post.no_fault {m : Main} {slots : Nat → Slot} {p : Post}
    (hsound : ∀ c, p.caller = .pool c → p.Sound m slots c)
    (hquiet : p.downward = false → p.Quiet m slots) (what : Fault) : p.pc ≠ .fault what := by
  intro hpc
  by_cases hdown : p.downward = true
  · rw [Post.downward] at hdown
    split at hdown
    · next c hcaller =>
      have hc := (hsound c hcaller).2
      rw [hpc] at hc
      exact Nat.not_lt_of_le (of_decide_eq_true hdown) hc.1
    · exact nomatch hdown
  · have hq := (hquiet (by simpa using hdown)).2.2
    rwa [hpc] at hq

theorem CalmInv.no_fault (h : s.CalmInv) {p : Post} (hp : p ∈ s.posts) (what : Fault) :
    p.pc ≠ .fault what :=
  Post.no_fault (h.sound p hp) (h.quiet p hp) what

theorem CalmInv.of_main (h : s.CalmInv) (hcalm : s.Calm .main) (hstep : s.mainStep = some s') :
    s'.CalmInv := by
  obtain ⟨hposts, hlock⟩ := mainStep_lock hstep
  obtain ⟨-, htearing⟩ := mainStep_main hstep
  refine ⟨h.toInv.of_main hstep, fun p hp hdown => ?_, ?_⟩
  · rw [hposts] at hp
    have hnot : s'.main.tearing = false → s.main.tearing ≠ true := fun hnot ht => by
      rw [htearing.2 (.inl ht)] at hnot
      exact nomatch hnot
    refine (h.quiet p hp hdown).frame (fun hbusy ht hearly => ?_) (fun ht i hi => ?_)
      (fun ht i hi => ?_)
    · have hserving : s.main ≠ .serving := fun hserving =>
        absurd (hcalm hserving p hp hbusy) (by simp [hdown])
      refine ⟨?_, fun he => absurd (hearly he) hserving⟩
      rw [Bool.eq_false_iff, Ne, htearing, ht]
      simp [hserving]
    · exact ((mainStep_keeps h.arranged hstep i).1 hi).resolve_right fun hand => hnot ht hand.2
    · rcases (mainStep_keeps h.arranged hstep i).2 with hsame | habsent | ⟨-, ht', -⟩
      · rwa [Slot.messageLoop, hsame]
      · simp [Slot.messageLoop, habsent] at hi
      · exact absurd ht' (hnot ht)
  · have hheld := h.held
    rw [holders] at hheld ⊢
    rw [hposts]
    rcases hlock with ⟨h₁, h₂⟩ | ⟨h₁, h₂, h₃, h₄⟩ | ⟨h₁, h₂, h₃⟩
    · rwa [h₁, h₂]
    · rw [h₁, h₃] at hheld
      rw [h₂, h₄]
      simp only [Bool.toNat_false, Bool.toNat_true] at hheld ⊢
      omega
    · rw [h₁] at hheld
      have := s.lock.toNat_le
      simp only [h₂, h₃, Bool.toNat_false, Bool.toNat_true] at hheld ⊢
      omega

theorem CalmInv.of_thread (h : s.CalmInv) {id : Nat} (hstep : s.threadStep id = some s') :
    s'.CalmInv := by
  have hinv := h.toInv.of_thread hstep
  obtain ⟨stage, hs', hcases⟩ := threadStep_cases hstep
  have hself : s'.slots id = { s.slots id with stage } := by
    rw [hs']
    exact Function.update_self ..
  have hother : ∀ i, i ≠ id → s'.slots i = s.slots i := fun i hne => by
    rw [hs']
    exact Function.update_of_ne hne ..
  have hmain : s'.main = s.main := by rw [hs']
  refine ⟨hinv, fun p hp hdown => ?_, by rw [hs']; exact h.held⟩
  rw [show s'.posts = s.posts by rw [hs']] at hp
  refine (h.quiet p hp hdown).frame (fun _ ht hearly => ⟨hmain ▸ ht, hmain ▸ hearly⟩)
    (fun _ i hi => ?_) (fun ht i hi => ?_) <;> rcases eq_or_ne i id with rfl | hne
  · rwa [hself]
  · rwa [hother i hne]
  · -- a thread leaves its loop in the teardown only
    have hnot : (s'.slots i).stage ≠ .left ∧ (s'.slots i).stage ≠ .ended :=
      ⟨fun hl => Bool.false_ne_true (ht.symm.trans (hinv.arranged.tearing_of_ended (.inl hl))),
        fun he => Bool.false_ne_true (ht.symm.trans (hinv.arranged.tearing_of_ended (.inr he)))⟩
    rw [hself] at hnot ⊢
    rcases hcases with ⟨-, rfl⟩ | ⟨-, rfl⟩ | ⟨-, -, -, rfl⟩ | ⟨-, rfl⟩
    · rfl
    · rfl
    · exact absurd rfl hnot.1
    · exact absurd rfl hnot.2
  · rwa [hother i hne]

theorem CalmInv.of_begin (h : s.CalmInv) {caller : Caller} {target : Nat}
    (htarget : target < idCount) (hcan : s.canPost caller = true)
    (hcalm : s.Calm (.begin caller target)) {early : Bool}
    (hearly : s.main.tearing = false → early = false → s.main = .serving) :
    CalmInv { s with posts := s.posts ++ [{ caller, target, early }] } := by
  refine ⟨h.toInv.of_begin hcan, fun p hp hdown => ?_, ?_⟩
  · rcases List.mem_append.1 hp with hp | hp
    · exact h.quiet p hp hdown
    · obtain rfl := List.mem_singleton.1 hp
      have ht : s.main.tearing = false := hcalm.resolve_right fun hd => nomatch hdown.symm.trans hd
      exact ⟨htarget, fun _ => ⟨ht, hearly ht⟩, trivial⟩
  · rw [holders, List.countP_append]
    exact h.held

theorem CalmInv.of_post (h : s.CalmInv) {k : Nat} {p : Post} (hk : s.posts[k]? = some p)
    {lock : Bool} {pc : Pc} (hnext : p.next s.slots s.lock = some (lock, pc)) :
    CalmInv { s with lock, posts := s.posts.set k { p with pc } } := by
  have hinv := h.toInv.of_post hk hnext
  obtain ⟨hlt, hget⟩ := List.getElem?_eq_some_iff.1 hk
  have hp := List.mem_of_getElem? hk
  have hquiet : ∀ q ∈ s.posts.set k { p with pc }, q.downward = false →
      q.Quiet s.main s.slots := fun q hq hdown => by
    rcases List.mem_or_eq_of_mem_set hq with hq | rfl
    · exact h.quiet q hq hdown
    · exact Post.Quiet.next (p := p) h.arranged (h.quiet p hp hdown) hnext
  have hnofault : ∀ what, pc ≠ .fault what :=
    Post.no_fault (p := { p with pc })
      (fun c hcaller => (h.sound p hp c hcaller).next (p := p) h.arranged hcaller hnext)
      fun hdown => Post.Quiet.next (p := p) h.arranged (h.quiet p hp hdown) hnext
  refine ⟨hinv, hquiet, ?_⟩
  have hheld := h.held
  have hpos : p.holds = true → 0 < s.posts.countP Post.holds := fun hh =>
    List.countP_pos_iff.2 ⟨p, hp, hh⟩
  have hle := s.lock.toNat_le
  rw [holders] at hheld
  show s.main.holds.toNat + (s.posts.set k { p with pc }).countP Post.holds = lock.toNat
  rw [List.countP_set hlt, hget]
  rcases Post.next_lock hnext with ⟨rfl, hsame | ⟨⟨what, hpc⟩, -⟩⟩ | ⟨h₁, rfl, h₃, h₄⟩ |
    ⟨h₁, rfl, h₃⟩
  · rw [hsame]
    split
    · have := hpos ‹_›
      omega
    · omega
  · exact absurd hpc (hnofault what)
  · rw [h₁, Bool.toNat_false] at hheld
    rw [h₃, h₄, if_neg Bool.false_ne_true, if_pos rfl, Bool.toNat_true]
    omega
  · have := hpos h₁
    rw [if_pos h₁, h₃, if_neg Bool.false_ne_true, Bool.toNat_false]
    omega

/-- Not calm: a thread without a message loop posts to the COMPUTE thread, whose loop is gone by
then, takes itself for that thread, and goes on without the lock while the entry is cleared. -/
example : (step.run {} (List.replicate 4 Action.main ++ (List.range' 1 7).flatMap (fun i =>
    List.replicate 5 Action.main ++ [Action.thread i, Action.thread i, Action.main]) ++
    ([.main, .main, .thread 7, .thread 7, .begin (.foreign false) 7] : List Action) ++
    List.replicate 18 (Action.post 0) ++ List.replicate 3 Action.main ++ [Action.post 0])).map
      ThreadPool.posts =
      some [⟨.foreign false, 7, false, .fault .thread⟩] := by decide +kernel

/-! ## Coming to an end -/

namespace Main

/-- The steps made so far; where the main thread waits for another one, those of that thread count
with it. -/
def done : Main → Stage → Nat
  | .setup id .alloc, _ => 8 * id
  | .setup id .acquire, _ => 8 * id + 1
  | .setup id .register, _ => 8 * id + 2
  | .setup id .release, _ => 8 * id + 3
  | .setup id .create, _ => 8 * id + 4
  | .setup id .await, .looped => 8 * id + 6
  | .setup id .await, .running => 8 * id + 7
  | .setup id .await, _ => 8 * id + 5
  | .serving, _ => 8 * idCount
  | .teardown id .stopSoon, _ => 1 + 8 * (2 * idCount - 1 - id)
  | .teardown id .join, .left => 3 + 8 * (2 * idCount - 1 - id)
  | .teardown id .join, .ended => 4 + 8 * (2 * idCount - 1 - id)
  | .teardown id .join, _ => 2 + 8 * (2 * idCount - 1 - id)
  | .teardown id .acquire, _ => 5 + 8 * (2 * idCount - 1 - id)
  | .teardown id .unregister, _ => 6 + 8 * (2 * idCount - 1 - id)
  | .teardown id .release, _ => 7 + 8 * (2 * idCount - 1 - id)
  | .teardown id .free, _ => 8 + 8 * (2 * idCount - 1 - id)
  | .freeLoop, _ => 16 * idCount + 1
  | .ended, _ => 16 * idCount + 2

end Main

/-- The steps of setup and teardown made so far. -/
def done (s : ThreadPool) : Nat := s.main.done (s.slots s.main.level).stage

namespace Post

/-- The steps a post has before it at most. -/
def left (p : Post) : Nat :=
  match p.pc with
  | .test i => 6 + 3 * (idCount - i)
  | .compare i => 5 + 3 * (idCount - i)
  | .identify i => 4 + 3 * (idCount - i)
  | .acquire => 5
  | .load _ => 4
  | .deref _ => 3
  | .post _ => 2
  | .release _ => 1
  | .returned _ | .fault _ => 0

end Post

end ThreadPool

end Dcfpe.Base
