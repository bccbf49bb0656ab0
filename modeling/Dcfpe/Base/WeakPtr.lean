import Dcfpe.Lib.Checked
import Dcfpe.Lib.Machine
import Dcfpe.Lib.Tokens

/-!
# Weak pointers that are promoted

An object with a `RefCountedObjectModelEx` keeps its count in its `WeakPtrData`, which outlives it.
Threads copy, assign and destroy `InterfacePtr`s to it, and make new ones of weak pointers:
`promote` takes a reference if the count is not 0, makes an `InterfacePtr`, which takes another one,
and releases the first.

A step is what a thread does up to and including one access to the count, or the `delete`.  Between
two of them a thread only works on pointers of its own.  Of the pointers there is one bit: whether
they point to the object.  A pointer holds a reference from the `AddRef` in it to the `Release`, so
when an assignment is under way it holds that to the old target too (`releasing`).
-/

set_option autoImplicit false

namespace Dcfpe.Base

namespace WeakPtr

/-- What a thread is doing with the object. -/
inductive Pc where
  | idle
  /-- A pointer has another target now, and `ReleaseObjectRef` is next. -/
  | releasing
  /-- `ReleaseObjectRef` has returned 0, and `delete this` is next. -/
  | deleting
  /-- In `Promote`, before the load. -/
  | loading
  /-- Before the `compare_exchange_strong`, with what has been loaded. -/
  | exchanging (oldVal : { v : Int32 // v ≠ 0 })
  /-- `Promote` has returned true, and the `AddRef` of `ret` is next. -/
  | promoted
  /-- `ret` has been made and holds a reference, and the `Release` of the extra one is next, with
  which `promote` returns `ret`. -/
  | dropping
  deriving DecidableEq

structure Thread where
  ptrs : List Bool := []
  pc : Pc := .idle
  deriving DecidableEq

/-- What a thread does with its pointers, which are numbered.  `assignOther` is an assignment of
null or of another object, and `proceed` is the next step of what is under way. -/
inductive Op where
  | construct
  | copyConstruct (src : Nat)
  | moveConstruct (src : Nat)
  | assign (dst src : Nat)
  | assignOther (dst : Nat)
  | moveAssign (dst src : Nat)
  | swap (a b : Nat)
  | destroy (p : Nat)
  | promote
  | proceed
  deriving DecidableEq, Repr

/-- `object_strong_ref_count_`, and how often the object has been deleted. -/
structure Shared where
  count : Int32
  deleted : Nat := 0
  deriving DecidableEq, Repr

def Shared.addObjectRef (o : Shared) : Shared := { o with count := o.count + 1 }

def Shared.releaseObjectRef (o : Shared) : Shared := { o with count := o.count - 1 }

namespace Thread

/-- A pointer that gives up its target: `Release` is next if that is the object. -/
def give (old : Bool) (ptrs : List Bool) : Thread :=
  { ptrs, pc := if old then .releasing else .idle }

/-- The first step of an operation on the pointers. -/
def begin (o : Shared) (th : Thread) : Op → Option (Shared × Thread)
  | .construct => some (o, { th with ptrs := th.ptrs ++ [false] })
  | .copyConstruct src => do
    let r ← th.ptrs[src]?
    some (if r then o.addObjectRef else o, { th with ptrs := th.ptrs ++ [r] })
  | .moveConstruct src => do
    let r ← th.ptrs[src]?
    some (o, { th with ptrs := th.ptrs.set src false ++ [r] })
  | .assign dst src => do
    let r ← th.ptrs[src]?
    let old ← th.ptrs[dst]?
    some (if r then o.addObjectRef else o, give old (th.ptrs.set dst r))
  | .assignOther dst => do
    let old ← th.ptrs[dst]?
    some (o, give old (th.ptrs.set dst false))
  | .moveAssign dst src => do
    let r ← th.ptrs[src]?
    let old ← th.ptrs[dst]?
    if r ≠ old then some (o, give old ((th.ptrs.set dst r).set src false))
    else some (o, th)
  | .swap a b => do
    let p ← th.ptrs[a]?
    let r ← th.ptrs[b]?
    some (o, { th with ptrs := (th.ptrs.set a r).set b p })
  | .destroy p => do
    let old ← th.ptrs[p]?
    some (o, give old (th.ptrs.eraseIdx p))
  | .promote => some (o, { th with pc := .loading })
  | .proceed => none

/-- The next step of what is under way. -/
def proceed (o : Shared) (th : Thread) : Option (Shared × Thread) :=
  match th.pc with
  | .idle => none
  | .releasing =>
    let o := o.releaseObjectRef
    some (o, { th with pc := if o.count = 0 then .deleting else .idle })
  | .deleting => some ({ o with deleted := o.deleted + 1 }, { th with pc := .idle })
  | .loading =>
    if h : o.count = 0 then some (o, { th with ptrs := th.ptrs ++ [false], pc := .idle })
    else some (o, { th with pc := .exchanging ⟨o.count, h⟩ })
  | .exchanging oldVal =>
    if o.count = oldVal then some ({ o with count := oldVal + 1 }, { th with pc := .promoted })
    else some (o, { th with pc := .loading })
  | .promoted => some (o.addObjectRef, { th with pc := .dropping })
  | .dropping =>
    let o := o.releaseObjectRef
    some (o, { ptrs := th.ptrs ++ [true], pc := if o.count = 0 then .deleting else .idle })

def step (o : Shared) (th : Thread) (op : Op) : Option (Shared × Thread) :=
  if op = .proceed then th.proceed o
  else if th.pc = .idle then th.begin o op
  else none

end Thread

end WeakPtr

open WeakPtr

/-- An object with the threads that may have pointers to it. -/
structure WeakPtrState where
  shared : Shared
  threads : List Thread
  deriving DecidableEq

namespace WeakPtr

/-- The object has been made and put into a pointer; other threads have weak pointers. -/
def start (n : Nat) : WeakPtrState :=
  { shared := { count := 1 }, threads := { ptrs := [true] } :: List.replicate n {} }

/-- A step of one of the threads. -/
def step : Machine WeakPtrState (Nat × Op) := fun s (i, op) => do
  let (shared, th) ← (← s.threads[i]?).step s.shared op
  some { shared, threads := s.threads.set i th }

/-! ## References -/

namespace Thread

/-- The references that pointers of the thread hold, `ret` among them. -/
def held (th : Thread) : Nat :=
  Tokens.weight Bool.toNat th.ptrs + if th.pc = .releasing ∨ th.pc = .dropping then 1 else 0

/-- The references on their way through `promote`. -/
def inTransit (th : Thread) : Nat := if th.pc = .promoted ∨ th.pc = .dropping then 1 else 0

def refs (th : Thread) : Nat := th.held + th.inTransit

/-- About to delete the object. -/
def deletes (th : Thread) : Nat := if th.pc = .deleting then 1 else 0

/-- What a step of a thread is to the count. -/
inductive Effect (o : Shared) (th : Thread) : Shared → Thread → Prop where
  | same {th' : Thread} (hrefs : th'.refs = th.refs) (hdeletes : th.deletes = 0)
      (hdeletes' : th'.deletes = 0) : Effect o th o th'
  /-- A new reference, by a thread that has one or by a `Promote` that has found the count not to be
  0. -/
  | add {th' : Thread} (hrefs : th'.refs = th.refs + 1) (hlive : 0 < th.refs ∨ o.count ≠ 0)
      (hdeletes : th.deletes = 0) (hdeletes' : th'.deletes = 0) : Effect o th o.addObjectRef th'
  | release {th' : Thread} (hrefs : th'.refs + 1 = th.refs) (hdeletes : th.deletes = 0)
      (hdeletes' : th'.deletes = if o.count - 1 = 0 then 1 else 0) :
      Effect o th o.releaseObjectRef th'
  | delete {th' : Thread} (hrefs : th'.refs = th.refs) (hdeletes : th.deletes = 1)
      (hdeletes' : th'.deletes = 0) : Effect o th { o with deleted := o.deleted + 1 } th'

variable {o o' : Shared} {th th' : Thread}

theorem refs_idle (h : th.pc = .idle) :
    th.refs = Tokens.weight Bool.toNat th.ptrs ∧ th.deletes = 0 := by
  simp [refs, held, inTransit, deletes, h]

/-- A pointer that gives up its target keeps the reference until `Release`. -/
theorem refs_give (old : Bool) (ptrs : List Bool) :
    (give old ptrs).refs = Tokens.weight Bool.toNat ptrs + old.toNat ∧
      (give old ptrs).deletes = 0 := by
  cases old <;> simp [give, refs, held, inTransit, deletes]

theorem proceed_effect (h : th.proceed o = some (o', th')) : Effect o th o' th' := by
  rw [proceed] at h
  split at h
  · exact nomatch h
  · next hpc =>
    obtain ⟨rfl, rfl⟩ := Prod.mk.inj (Option.some_inj.1 h)
    refine .release ?_ (by simp [deletes, hpc]) ?_
    · split <;> simp [refs, held, inTransit, hpc]
    · show (if (if o.count - 1 = 0 then Pc.deleting else Pc.idle) = .deleting then 1 else 0) = _
      split <;> rfl
  · next hpc =>
    obtain ⟨rfl, rfl⟩ := Prod.mk.inj (Option.some_inj.1 h)
    exact .delete (by simp [refs, held, inTransit, hpc]) (by simp [deletes, hpc])
      (by simp [deletes])
  · next hpc =>
    split at h
    · obtain ⟨rfl, rfl⟩ := Prod.mk.inj (Option.some_inj.1 h)
      exact .same (by simp [refs, held, inTransit, hpc]) (by simp [deletes, hpc])
        (by simp [deletes])
    · obtain ⟨rfl, rfl⟩ := Prod.mk.inj (Option.some_inj.1 h)
      exact .same (by simp [refs, held, inTransit, hpc]) (by simp [deletes, hpc])
        (by simp [deletes])
  · next oldVal hpc =>
    split at h
    · next heq =>
      obtain ⟨rfl, rfl⟩ := Prod.mk.inj (Option.some_inj.1 h)
      rw [← heq]
      exact .add (by simp [refs, held, inTransit, hpc]) (.inr (heq ▸ oldVal.2))
        (by simp [deletes, hpc]) (by simp [deletes])
    · obtain ⟨rfl, rfl⟩ := Prod.mk.inj (Option.some_inj.1 h)
      exact .same (by simp [refs, held, inTransit, hpc]) (by simp [deletes, hpc])
        (by simp [deletes])
  · next hpc =>
    obtain ⟨rfl, rfl⟩ := Prod.mk.inj (Option.some_inj.1 h)
    exact .add (by simp [refs, held, inTransit, hpc]) (.inl (by simp [refs, inTransit, hpc]))
      (by simp [deletes, hpc]) (by simp [deletes])
  · next hpc =>
    obtain ⟨rfl, rfl⟩ := Prod.mk.inj (Option.some_inj.1 h)
    refine .release ?_ (by simp [deletes, hpc]) ?_
    · split <;> simp [refs, held, inTransit, hpc]
    · show (if (if o.count - 1 = 0 then Pc.deleting else Pc.idle) = .deleting then 1 else 0) = _
      split <;> rfl

/-- What a thread does with pointers alone. -/
theorem Effect.unchanged {th' : Thread} (hpc : th.pc = .idle)
    (hrefs : th'.refs = Tokens.weight Bool.toNat th.ptrs) (hdeletes : th'.deletes = 0) :
    Effect o th o th' :=
  .same (hrefs.trans (refs_idle hpc).1.symm) (refs_idle hpc).2 hdeletes

/-- A pointer that gets its target from another one. -/
theorem Effect.copy {th' : Thread} (hpc : th.pc = .idle) {src : Nat} {r : Bool}
    (hsrc : th.ptrs[src]? = some r)
    (hrefs : th'.refs = Tokens.weight Bool.toNat th.ptrs + r.toNat) (hdeletes : th'.deletes = 0) :
    Effect o th (if r then o.addObjectRef else o) th' := by
  cases r with
  | false => exact .unchanged hpc hrefs hdeletes
  | true =>
    obtain ⟨hidle, hdeletes'⟩ := refs_idle hpc
    have hle := Tokens.le_weight Bool.toNat (List.mem_of_getElem? hsrc)
    refine .add ?_ (.inl ?_) hdeletes' hdeletes
    · rw [hrefs, hidle]
      rfl
    · rw [hidle]
      exact hle

theorem begin_effect {op : Op} (hpc : th.pc = .idle) (h : th.begin o op = some (o', th')) :
    Effect o th o' th' := by
  have hidle : ∀ l, Thread.refs { th with ptrs := l } = Tokens.weight Bool.toNat l ∧
      Thread.deletes { th with ptrs := l } = 0 := fun l =>
    refs_idle (show ({ th with ptrs := l } : Thread).pc = .idle from hpc)
  cases op with
  | construct =>
    obtain ⟨rfl, rfl⟩ := Prod.mk.inj (Option.some_inj.1 h)
    refine .unchanged hpc ?_ (hidle _).2
    rw [(hidle _).1, Tokens.weight_append]
    rfl
  | copyConstruct src =>
    obtain ⟨r, hsrc, h⟩ := Option.bind_eq_some_iff.1 h
    obtain ⟨rfl, rfl⟩ := Prod.mk.inj (Option.some_inj.1 h)
    refine .copy hpc hsrc ?_ (hidle _).2
    rw [(hidle _).1, Tokens.weight_append]
    rfl
  | moveConstruct src =>
    obtain ⟨r, hsrc, h⟩ := Option.bind_eq_some_iff.1 h
    obtain ⟨rfl, rfl⟩ := Prod.mk.inj (Option.some_inj.1 h)
    have hset := Tokens.weight_set Bool.toNat hsrc false
    refine .unchanged hpc ?_ (hidle _).2
    rw [(hidle _).1, Tokens.weight_append]
    exact hset
  | assign dst src =>
    obtain ⟨r, hsrc, h⟩ := Option.bind_eq_some_iff.1 h
    obtain ⟨old, hdst, h⟩ := Option.bind_eq_some_iff.1 h
    obtain ⟨rfl, rfl⟩ := Prod.mk.inj (Option.some_inj.1 h)
    have hset := Tokens.weight_set Bool.toNat hdst r
    obtain ⟨hgive, hdeletes⟩ := refs_give old (th.ptrs.set dst r)
    exact .copy hpc hsrc (hgive.trans hset) hdeletes
  | assignOther dst =>
    obtain ⟨old, hdst, h⟩ := Option.bind_eq_some_iff.1 h
    obtain ⟨rfl, rfl⟩ := Prod.mk.inj (Option.some_inj.1 h)
    have hset := Tokens.weight_set Bool.toNat hdst false
    obtain ⟨hgive, hdeletes⟩ := refs_give old (th.ptrs.set dst false)
    exact .unchanged hpc (hgive.trans hset) hdeletes
  | moveAssign dst src =>
    obtain ⟨r, hsrc, h⟩ := Option.bind_eq_some_iff.1 h
    obtain ⟨old, hdst, h⟩ := Option.bind_eq_some_iff.1 h
    split at h
    · next hne =>
      obtain ⟨rfl, rfl⟩ := Prod.mk.inj (Option.some_inj.1 h)
      have hidx : dst ≠ src := by
        rintro rfl
        exact hne (Option.some_inj.1 (hsrc.symm.trans hdst))
      have hset := Tokens.weight_set Bool.toNat hdst r
      have hset' := Tokens.weight_set Bool.toNat
        ((List.getElem?_set_ne hidx).trans hsrc : (th.ptrs.set dst r)[src]? = some r) false
      obtain ⟨hgive, hdeletes⟩ := refs_give old ((th.ptrs.set dst r).set src false)
      refine .unchanged hpc ?_ hdeletes
      rw [Bool.toNat_false] at hset'
      omega
    · obtain ⟨rfl, rfl⟩ := Prod.mk.inj (Option.some_inj.1 h)
      exact .unchanged hpc (hidle _).1 (hidle _).2
  | swap a b =>
    obtain ⟨p, ha, h⟩ := Option.bind_eq_some_iff.1 h
    obtain ⟨r, hb, h⟩ := Option.bind_eq_some_iff.1 h
    obtain ⟨rfl, rfl⟩ := Prod.mk.inj (Option.some_inj.1 h)
    have hb' : (th.ptrs.set a r)[b]? = some r := by
      by_cases hab : a = b
      · rw [hab, List.getElem?_set_self (List.getElem?_eq_some_iff.1 hb).1]
      · exact (List.getElem?_set_ne hab).trans hb
    have hset := Tokens.weight_set Bool.toNat ha r
    have hset' := Tokens.weight_set Bool.toNat hb' p
    refine .unchanged hpc ?_ (hidle _).2
    rw [(hidle _).1]
    omega
  | destroy p =>
    obtain ⟨old, hp, h⟩ := Option.bind_eq_some_iff.1 h
    obtain ⟨rfl, rfl⟩ := Prod.mk.inj (Option.some_inj.1 h)
    have herase := Tokens.weight_eraseIdx Bool.toNat hp
    obtain ⟨hgive, hdeletes⟩ := refs_give old (th.ptrs.eraseIdx p)
    exact .unchanged hpc (hgive.trans herase) hdeletes
  | promote =>
    obtain ⟨rfl, rfl⟩ := Prod.mk.inj (Option.some_inj.1 h)
    exact .unchanged hpc (by simp [refs, held, inTransit]) (by simp [deletes])
  | proceed => exact nomatch h

theorem step_effect {op : Op} (h : th.step o op = some (o', th')) : Effect o th o' th' := by
  rw [step] at h
  split at h
  · exact proceed_effect h
  · split at h
    · next hpc => exact begin_effect hpc h
    · exact nomatch h

end Thread

end WeakPtr

namespace WeakPtrState

open Thread

/-- The references that the pointers hold. -/
def held (s : WeakPtrState) : Nat := Tokens.weight Thread.held s.threads

def inTransit (s : WeakPtrState) : Nat := Tokens.weight Thread.inTransit s.threads

/-- How many threads are about to delete the object. -/
def deleting (s : WeakPtrState) : Nat := Tokens.weight Thread.deletes s.threads

theorem weight_refs (l : List Thread) :
    Tokens.weight Thread.refs l =
      Tokens.weight Thread.held l + Tokens.weight Thread.inTransit l := by
  induction l with
  | nil => rfl
  | cons th l ih =>
    rw [Tokens.weight_cons, Tokens.weight_cons, Tokens.weight_cons, ih, Thread.refs]
    omega

/-- The count is that of the references, and the object is deleted by one thread when it has become
0. -/
structure Counted (s : WeakPtrState) : Prop where
  count : s.shared.count.toInt = s.held + s.inTransit
  once : s.shared.deleted + s.deleting = if s.shared.count = 0 then 1 else 0

theorem counted_start (n : Nat) : (start n).Counted := by
  have hnone : ∀ f : Thread → Nat, f {} = 0 → Tokens.weight f (List.replicate n {}) = 0 := by
    intro f hf
    induction n with
    | zero => rfl
    | succ n ih => rw [List.replicate_succ, Tokens.weight_cons, ih, hf]
  refine ⟨?_, ?_⟩
  · rw [held, inTransit, start, Tokens.weight_cons, Tokens.weight_cons, hnone _ rfl, hnone _ rfl]
    rfl
  · rw [deleting, start, Tokens.weight_cons, hnone _ rfl]
    rfl

variable {s t : WeakPtrState} {a : Nat × Op}

/-- One thread makes the step, and the others have what they had. -/
theorem step_cases (h : WeakPtr.step s a = some t) : ∃ th th' : Thread,
    th.refs ≤ s.held + s.inTransit ∧
    t.held + t.inTransit + th.refs = s.held + s.inTransit + th'.refs ∧
    t.deleting + th.deletes = s.deleting + th'.deletes ∧
    Thread.Effect s.shared th t.shared th' := by
  obtain ⟨i, op⟩ := a
  obtain ⟨th, hth, h⟩ := Option.bind_eq_some_iff.1 h
  obtain ⟨⟨shared, th'⟩, hstep, h⟩ := Option.bind_eq_some_iff.1 h
  have hle := Tokens.le_weight Thread.refs (List.mem_of_getElem? hth)
  have hrefs := Tokens.weight_set Thread.refs hth th'
  rw [weight_refs, weight_refs] at hrefs
  rw [weight_refs] at hle
  rw [← Option.some_inj.1 h]
  exact ⟨th, th', hle, hrefs, Tokens.weight_set Thread.deletes hth th', step_effect hstep⟩

theorem count_eq_zero_iff {x : Int32} : x = 0 ↔ x.toInt = 0 := Int32.toInt_inj.symm

theorem ne_zero_of_pos {x : Int32} (h : 0 < x.toInt) : x ≠ 0 := by
  rw [Ne, count_eq_zero_iff]
  omega

theorem Counted.step (h : s.Counted) (hstep : WeakPtr.step s a = some t)
    (hbound : t.held + t.inTransit ≤ 2147483647) : t.Counted := by
  obtain ⟨th, th', hle, hrefs, hdeletes, heffect⟩ := step_cases hstep
  have hcount := h.count
  have honce := h.once
  generalize hshared : t.shared = o at heffect
  cases heffect with
  | same hrefs' h0 h0' =>
    refine ⟨?_, ?_⟩
    · rw [hshared]
      omega
    · rw [hshared]
      omega
  | add hrefs' hlive h0 h0' =>
    have hpos : 0 < s.shared.count.toInt := by
      rcases hlive with hlive | hlive
      · omega
      · rw [Ne, count_eq_zero_iff] at hlive
        omega
    have hnext := Checked.toInt_add_one (show s.shared.count.toInt < 2147483647 by omega)
    rw [if_neg (ne_zero_of_pos hpos)] at honce
    refine ⟨?_, ?_⟩
    · rw [hshared]
      show (s.shared.count + 1).toInt = _
      omega
    · rw [hshared]
      show s.shared.deleted + _ = if s.shared.count + 1 = 0 then 1 else 0
      rw [if_neg (ne_zero_of_pos (show 0 < (s.shared.count + 1).toInt by omega))]
      omega
  | release hrefs' h0 h0' =>
    have hpos : 0 < s.shared.count.toInt := by omega
    have hnext := Checked.toInt_sub_one hpos
    rw [if_neg (ne_zero_of_pos hpos)] at honce
    refine ⟨?_, ?_⟩
    · rw [hshared]
      show (s.shared.count - 1).toInt = _
      omega
    · rw [hshared]
      show s.shared.deleted + _ = if s.shared.count - 1 = 0 then 1 else 0
      rw [← h0']
      omega
  | delete hrefs' h0 h0' =>
    refine ⟨?_, ?_⟩
    · rw [hshared]
      show s.shared.count.toInt = _
      omega
    · rw [hshared]
      show s.shared.deleted + 1 + _ = if s.shared.count = 0 then 1 else 0
      omega

/-! ## Runs -/

/-- A step after which there are no more references than an `int` can count. -/
def FewRefs (s : WeakPtrState) (a : Nat × Op) : Prop :=
  ∀ t ∈ WeakPtr.step s a, t.held + t.inTransit ≤ 2147483647

instance (s : WeakPtrState) (a : Nat × Op) : Decidable (s.FewRefs a) :=
  inferInstanceAs (Decidable (∀ t ∈ WeakPtr.step s a, t.held + t.inTransit ≤ 2147483647))

/-- Nobody has a reference any more, or is about to get one. -/
structure Dead (s : WeakPtrState) : Prop where
  count : s.shared.count = 0
  held : s.held = 0
  inTransit : s.inTransit = 0

theorem Counted.dead (h : s.Counted) (hcount : s.shared.count = 0) : s.Dead := by
  have := h.count
  rw [hcount, Int32.toInt_zero] at this
  exact ⟨hcount, by omega, by omega⟩

/-- A dead object stays dead. -/
theorem Dead.step (h : s.Dead) (hstep : WeakPtr.step s a = some t) : t.Dead := by
  obtain ⟨th, th', hle, hrefs, -, heffect⟩ := step_cases hstep
  have hheld := h.held
  have htransit := h.inTransit
  have hzero : th'.refs = th.refs ∧ t.shared.count = s.shared.count := by
    generalize hshared : t.shared = o at heffect
    cases heffect with
    | same hrefs' _ _ => exact ⟨hrefs', rfl⟩
    | add _ hlive _ _ =>
      rcases hlive with hlive | hlive
      · omega
      · exact absurd h.count hlive
    | release hrefs' _ _ => omega
    | delete hrefs' _ _ => exact ⟨hrefs', rfl⟩
  exact ⟨hzero.2.trans h.count, by omega, by omega⟩

/-- A thread of a dead object has no pointer to it, and `promote` will not give it one. -/
theorem Dead.thread (h : s.Dead) {th : Thread} (hth : th ∈ s.threads) :
    true ∉ th.ptrs ∧ th.pc ≠ .promoted ∧ th.pc ≠ .dropping := by
  have hheld := Tokens.le_weight Thread.held hth
  have htransit := Tokens.le_weight Thread.inTransit hth
  rw [show Tokens.weight Thread.held s.threads = 0 from h.held, Thread.held] at hheld
  rw [show Tokens.weight Thread.inTransit s.threads = 0 from h.inTransit, Thread.inTransit]
    at htransit
  refine ⟨fun hmem => ?_, fun hpc => ?_, fun hpc => ?_⟩
  · have := Tokens.le_weight Bool.toNat hmem
    rw [Bool.toNat_true] at this
    omega
  · rw [if_pos (.inl hpc)] at htransit
    omega
  · rw [if_pos (.inr hpc)] at htransit
    omega

/-- What is asked of a run with `n` other threads: the count is that of the references, the object
is deleted once when it becomes 0, and from then on nobody gets a pointer to it. -/
structure Safe (n : Nat) (as : List (Nat × Op)) : Prop where
  counted : ∀ pre s, pre <+: as → WeakPtr.step.run (start n) pre = some s → s.Counted
  dead : ∀ pre mid s t, pre ++ mid <+: as → WeakPtr.step.run (start n) pre = some s →
    s.shared.count = 0 → WeakPtr.step.run s mid = some t →
    t.shared.count = 0 ∧ t.shared.deleted ≤ 1 ∧
      ∀ th ∈ t.threads, true ∉ th.ptrs ∧ th.pc ≠ .promoted ∧ th.pc ≠ .dropping

/-- **Promotion never revives a dead object**, as long as an `int` counts its references. -/
theorem promote_safe {n : Nat} {as : List (Nat × Op)}
    (hfew : WeakPtr.step.Meets FewRefs (start n) as) : Safe n as := by
  have hcounted : ∀ pre s, pre <+: as → WeakPtr.step.run (start n) pre = some s →
      s.Counted := by
    rintro pre s ⟨rest, rfl⟩ hrun
    rw [Machine.meets_append hrun] at hfew
    exact Machine.run_invariant_of_meets
      (fun s a t h hfew hstep => h.step hstep (hfew t hstep)) (counted_start n) hfew.1 hrun
  refine ⟨hcounted, fun pre mid s t hpre hs hcount ht => ?_⟩
  have hdead := (hcounted pre s ((List.prefix_append pre mid).trans hpre) hs).dead hcount
  have hdead' : t.Dead :=
    Machine.run_invariant (P := Dead) (fun s a t h hstep => h.step hstep) hdead ht
  have honce := (hcounted (pre ++ mid) t hpre (Machine.run_append.2 ⟨s, hs, ht⟩)).once
  rw [if_pos hdead'.count] at honce
  exact ⟨hdead'.count, by omega, fun th hth => hdead'.thread hth⟩

/-- One thread lets the object go while another one promotes a pointer to it, and keeps it. -/
def promoteInTime : List (Nat × Op) :=
  [(1, .promote), (1, .proceed), (0, .destroy 0), (1, .proceed), (0, .proceed), (1, .proceed),
    (1, .proceed), (1, .destroy 0), (1, .proceed), (1, .proceed)]

theorem promote_safe_sample : Safe 1 promoteInTime := promote_safe (by decide)

/-- One thread, with as many pointers to the object. -/
def copied (c : Int32) (m : Nat) : WeakPtrState :=
  { shared := { count := c }, threads := [{ ptrs := List.replicate (m + 1) true }] }

theorem step_copied (c : Int32) (m : Nat) :
    WeakPtr.step (copied c m) (0, .copyConstruct 0) = some (copied (c + 1) (m + 1)) := by
  rw [copied, copied, List.replicate_succ' (n := m + 1)]
  rfl

theorem run_copied (k m : Nat) (c : Int32) :
    WeakPtr.step.run (copied c m) (List.replicate k (0, .copyConstruct 0)) =
      some (copied (c + Int32.ofNat k) (m + k)) := by
  induction k generalizing m c with
  | zero =>
    show some (copied c m) = some (copied (c + 0) m)
    rw [Int32.add_zero]
  | succ k ih =>
    rw [List.replicate_succ]
    refine Machine.run_cons.2 ⟨_, step_copied c m, ?_⟩
    rw [ih, Int32.add_assoc, Int32.ofNat_add, Int32.add_comm (Int32.ofNat k), Nat.add_assoc,
      Nat.add_comm k]
    rfl

/-- With 2^31 pointers the count is negative. -/
theorem not_promote_safe : ¬ ∀ (n : Nat) (as : List (Nat × Op)), Safe n as := by
  intro h
  have hcount : (1 + Int32.ofNat 2147483647 : Int32).toInt = _ :=
    ((h 0 (List.replicate 2147483647 (0, .copyConstruct 0))).counted _ _ (List.prefix_refl _)
      (run_copied 2147483647 0 1)).count
  rw [show (1 + Int32.ofNat 2147483647 : Int32).toInt = -2147483648 by decide] at hcount
  omega

end WeakPtrState

end Dcfpe.Base
