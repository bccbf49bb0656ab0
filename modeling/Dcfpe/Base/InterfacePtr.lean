import Mathlib.Logic.Relation
import Dcfpe.Base.RefCounted
import Dcfpe.Lib.Machine

/-!
# `InterfacePtr`s in a graph of objects

The operations of an `InterfacePtr`, on the stack or as a member of an object, in the order in which
the code takes and releases references.  A copy assignment first has the new target and then
releases the old one.  A move assignment releases the old target first, and then reads the source,
which may be a member of an object that has gone with it: `p = std::move(p->next)`.

`assign_safe_iff` says for which runs no pointer or object is used after its destruction and the
counts are right.
-/

set_option autoImplicit false

namespace Dcfpe.Base

namespace InterfacePtr

open ObjectGraph

/-- What a thread does with its pointers; those on the stack are numbered. -/
inductive Op where
  | construct
  /-- `InterfacePtr<T> p = new T`, for a class with so many members. -/
  | make (members : Nat)
  | copyConstruct (src : Place)
  | moveConstruct (src : Place)
  | copyAssign (dst src : Place)
  | moveAssign (dst src : Place)
  | swap (a b : Place)
  | destroy (i : Nat)
  deriving DecidableEq, Repr

/-- A new pointer on the stack. -/
def push (s : ObjectGraph) (p : Option Nat) : ObjectGraph := { s with stack := s.stack ++ [p] }

def make (s : ObjectGraph) (members : Nat) : ObjectGraph :=
  { s with
    objects := s.objects ++ [some { refCount := 1, members := List.replicate members none }]
    stack := s.stack ++ [some s.objects.length] }

def copyAssign (s : ObjectGraph) (dst src : Place) : Option ObjectGraph := do
  let p ← s.read src
  let old ← s.read dst
  some (((s.addRef p).write dst p).release [old])

def moveAssign (s : ObjectGraph) (dst src : Place) : Option ObjectGraph := do
  let r ← s.read src
  let p ← s.read dst
  if r = p then some s
  else
    let s := s.release [p]
    -- `ptr_ = r.ptr_`
    match s.read src, s.read dst with
    | some r, some _ => some ((s.write dst r).write src none)
    | _, _ => some { s with fault := true }

def swap (s : ObjectGraph) (a b : Place) : Option ObjectGraph := do
  let p ← s.read a
  let r ← s.read b
  some ((s.write a r).write b p)

/-- An operation on pointers that are there. -/
def apply (s : ObjectGraph) : Op → Option ObjectGraph
  | .construct => some (push s none)
  | .make members => some (make s members)
  | .copyConstruct src => (s.read src).map fun p => push (s.addRef p) p
  | .moveConstruct src => (s.read src).map fun p => push (s.write src none) p
  | .copyAssign dst src => copyAssign s dst src
  | .moveAssign dst src => moveAssign s dst src
  | .swap a b => swap s a b
  | .destroy i => s.stack[i]?.map fun old => { s with stack := s.stack.eraseIdx i }.release [old]

/-- After a fault there are no operations. -/
def step : Machine ObjectGraph Op := fun s op => if s.fault then none else apply s op

/-- Nothing has been used after its destruction, and the counts are right. -/
structure Right (s : ObjectGraph) : Prop where
  noFault : s.fault = false
  counted : ∀ a o, s.object a = some o → o.refCount.toInt = s.held a

/-- A graph to start from: all pointers have targets, all objects are held, and not too often for
their counts. -/
structure Sound (s : ObjectGraph) : Prop extends Right s where
  alive : ∀ a, 0 < s.held a ↔ (s.object a).isSome
  few : ∀ a, s.held a ≤ 2147483647

/-- What is asked of a run. -/
def Safe (s : ObjectGraph) (ops : List Op) : Prop :=
  ∀ pre t, pre <+: ops → step.run s pre = some t → Right t

/-- A move assignment that releases a target leaves the objects that the two pointers are members
of. -/
def OwnersStay (s : ObjectGraph) : Op → Prop
  | .moveAssign dst src => ∀ r p, s.read src = some r → s.read dst = some p → r ≠ p →
    ∀ a, src.owner = some a ∨ dst.owner = some a → ¬ (s.write dst none).Falls a
  | _ => True

/-- And no object is held more often than an `int` can count. -/
structure Careful (s : ObjectGraph) (op : Op) : Prop where
  owners : OwnersStay s op
  few : ∀ t, step s op = some t → ∀ a, t.held a ≤ 2147483647

variable {s t : ObjectGraph} {op : Op}

/-! ## The counts -/

theorem Sound.settled (h : Sound s) : s.Settled [] where
  noFault := h.noFault
  counted a o ho := by
    have hfew := h.few a
    rw [← Int32.toInt_inj, h.counted a o ho, Int32.toInt_ofNat_of_lt (by show _ + 0 < _; omega)]
    rfl
  bounded a := by
    have hfew := h.few a
    show s.held a + 0 < _
    omega
  alive := h.alive

theorem Sound.of_settled (h : s.Settled []) (hfew : ∀ a, s.held a ≤ 2147483647) : Sound s where
  noFault := h.noFault
  counted a o ho := by
    have hlt := hfew a
    rw [h.counted a o ho, Int32.toInt_ofNat_of_lt (by show _ + 0 < _; omega)]
    rfl
  alive := h.alive
  few := hfew

/-- The counts cannot be right if an object is held too often. -/
theorem Right.few (h : Right s) (hs : s.Settled []) (a : Nat) : s.held a ≤ 2147483647 := by
  rcases ho : s.object a with _ | o
  · have hzero : ¬ 0 < s.held a := fun hpos => by
      have halive := (hs.alive a).1 hpos
      rw [ho] at halive
      exact nomatch halive
    omega
  · have hcount := h.counted a o ho
    have hlt := o.refCount.toInt_lt
    omega

theorem held_push (s : ObjectGraph) (p : Option Nat) (b : Nat) :
    (push s p).held b = s.held b + if p = some b then 1 else 0 := by
  have happend : pointsTo b (s.stack ++ [p]) = pointsTo b s.stack + if p = some b then 1 else 0 :=
    pointsTo_append b s.stack [p]
  show pointsTo b (s.stack ++ [p]) + Tokens.weight (membersTo b) s.objects =
    pointsTo b s.stack + Tokens.weight (membersTo b) s.objects + _
  omega

/-- A pointer that is made takes over a reference. -/
theorem settled_push {p : Option Nat} {ps : List (Option Nat)} (h : s.Settled (p :: ps)) :
    (push s p).Settled ps := by
  refine h.congr rfl (fun _ => rfl) fun b => ?_
  rw [held_push, pointsTo_cons]
  omega

theorem pointsTo_replicate (b n : Nat) : pointsTo b (List.replicate n none) = 0 := by
  induction n with
  | zero => rfl
  | succ n ih => rw [List.replicate_succ, pointsTo_none, ih]

theorem held_make (s : ObjectGraph) (members b : Nat) :
    (make s members).held b = s.held b + if some s.objects.length = some b then 1 else 0 := by
  have hobjects : Tokens.weight (membersTo b) (make s members).objects =
      Tokens.weight (membersTo b) s.objects + pointsTo b (List.replicate members none) :=
    Tokens.weight_append _ _ _
  have hstack : pointsTo b (make s members).stack =
      pointsTo b s.stack + if some s.objects.length = some b then 1 else 0 :=
    pointsTo_append b s.stack [some s.objects.length]
  rw [pointsTo_replicate] at hobjects
  rw [held, held, hobjects, hstack]
  omega

theorem object_make_ne {b : Nat} (h : s.objects.length ≠ b) (members : Nat) :
    (make s members).object b = s.object b := by
  rw [object, object, make]
  rcases Nat.lt_or_gt_of_ne h with hb | hb
  · rw [List.getElem?_eq_none (by rw [List.length_append]; exact hb),
      List.getElem?_eq_none (Nat.le_of_lt hb)]
  · rw [List.getElem?_append_left hb]

theorem object_make_self (s : ObjectGraph) (members : Nat) :
    (make s members).object s.objects.length =
      some { refCount := 1, members := List.replicate members none } := by
  rw [object, make, List.getElem?_concat_length]
  rfl

theorem Sound.make (h : Sound s) (members : Nat) : (InterfacePtr.make s members).Settled [] := by
  have hnew : s.held s.objects.length = 0 := by
    refine Nat.eq_zero_of_not_pos fun hpos => ?_
    obtain ⟨o, ho⟩ := Option.isSome_iff_exists.1 ((h.alive _).1 hpos)
    exact absurd (List.getElem?_eq_some_iff.1 (object_eq_some.1 ho)).1 (Nat.lt_irrefl _)
  refine ⟨h.noFault, fun b o ho => ?_, fun b => ?_, fun b => ?_⟩
  · rw [held_make]
    by_cases hb : s.objects.length = b
    · subst hb
      rw [object_make_self, Option.some_inj] at ho
      rw [← ho, hnew, if_pos rfl]
      rfl
    · rw [object_make_ne hb] at ho
      rw [if_neg fun hsome => hb (Option.some_inj.1 hsome)]
      exact h.settled.counted b o ho
  · have hfew := h.few b
    rw [held_make]
    show _ + _ + 0 < _
    split
    · omega
    · omega
  · rw [held_make]
    by_cases hb : s.objects.length = b
    · subst hb
      rw [object_make_self, if_pos rfl]
      exact iff_of_true (Nat.succ_pos _) rfl
    · rw [object_make_ne hb, if_neg fun hsome => hb (Option.some_inj.1 hsome)]
      exact h.alive b

/-- An object is held at most once by each pointer that there is. -/
theorem held_le (s : ObjectGraph) (a : Nat) :
    s.held a ≤ s.stack.length + Tokens.weight (·.elim 0 (·.members.length)) s.objects := by
  have hcount : ∀ ps : List (Option Nat), pointsTo a ps ≤ ps.length := fun ps => by
    induction ps with
    | nil => exact Nat.le_refl 0
    | cons p ps ih =>
      rw [pointsTo_cons, List.length_cons]
      split
      · omega
      · omega
  refine Nat.add_le_add (hcount s.stack) (Tokens.weight_mono _ fun o _ => ?_)
  rcases o with _ | o
  · exact Nat.le_refl 0
  · exact hcount o.members

/-- A target of a pointer, and what it takes to refer to it once more. -/
theorem Sound.addRef (h : Sound s) {place : Place} {p : Option Nat} (hp : s.read place = some p) :
    (s.addRef p).Settled [p] ∧ ∀ place, (s.addRef p).read place = s.read place := by
  refine h.settled.addRef (fun a ha => ?_) fun a => ?_
  · exact (h.alive a).1 (held_pos_iff.2 ⟨place, ha ▸ hp⟩)
  · have hfew := h.few a
    rw [pointsTo_cons]
    show _ + (_ + 0) < _
    split
    · omega
    · omega

theorem Sound.copyAssign (h : Sound s) {dst src : Place}
    (hstep : InterfacePtr.copyAssign s dst src = some t) : t.Settled [] := by
  obtain ⟨p, hp, hstep⟩ := Option.bind_eq_some_iff.1 hstep
  obtain ⟨old, hold, hstep⟩ := Option.bind_eq_some_iff.1 hstep
  obtain ⟨hadd, hread⟩ := h.addRef hp
  rw [← Option.some_inj.1 hstep]
  exact (hadd.write ((hread dst).trans hold)).released.1

theorem Sound.swap (h : Sound s) {a b : Place} (hstep : InterfacePtr.swap s a b = some t) :
    t.Settled [] := by
  obtain ⟨p, hp, hstep⟩ := Option.bind_eq_some_iff.1 hstep
  obtain ⟨r, hr, hstep⟩ := Option.bind_eq_some_iff.1 hstep
  rw [← Option.some_inj.1 hstep]
  by_cases hab : a = b
  · subst hab
    obtain rfl := Option.some_inj.1 (hp.symm.trans hr)
    rw [write_read hp, write_read hp]
    exact h.settled
  · refine h.settled.write_write hp hr hab fun c => ?_
    rw [pointsTo_cons, pointsTo_cons, pointsTo_cons, pointsTo_cons, Nat.add_left_comm]

theorem Sound.destroy (h : Sound s) {i : Nat} {old : Option Nat} (hold : s.stack[i]? = some old) :
    ({ s with stack := s.stack.eraseIdx i }.release [old]).Settled [] := by
  have hs : Settled { s with stack := s.stack.eraseIdx i } [old] :=
    h.settled.congr rfl (fun _ => rfl) fun b => by
      have herase : pointsTo b (s.stack.eraseIdx i) + (if old = some b then 1 else 0) =
          pointsTo b s.stack := Tokens.weight_eraseIdx _ hold
      rw [pointsTo_cons]
      show pointsTo b (s.stack.eraseIdx i) + Tokens.weight (membersTo b) s.objects + (_ + 0) =
        pointsTo b s.stack + Tokens.weight (membersTo b) s.objects + 0
      omega
  exact hs.released.1

/-! ## Move assignments -/

section MoveAssign

variable {dst src : Place} {r p : Option Nat}

/-- The old target is released as if the pointer that is assigned to had been set to null before. -/
theorem Sound.clear (h : Sound s) (hp : s.read dst = some p) :
    (s.write dst none).Settled [p] ∧ (s.write dst none).write dst p = s := by
  refine ⟨(settled_none.2 h.settled).write hp, ?_⟩
  rw [write_write_self, write_read hp]

theorem moveAssign_of_ne (hr : s.read src = some r) (hp : s.read dst = some p) (hne : r ≠ p) :
    moveAssign s dst src =
      match (s.release [p]).read src, (s.release [p]).read dst with
      | some r, some _ => some (((s.release [p]).write dst r).write src none)
      | _, _ => some { s.release [p] with fault := true } := by
  rw [moveAssign, hr, hp]
  exact if_neg hne

theorem isSome_moveAssign (hr : s.read src = some r) (hp : s.read dst = some p) :
    (moveAssign s dst src).isSome := by
  by_cases hne : r = p
  · rw [moveAssign, hr, hp]
    exact Option.isSome_of_eq_some (if_pos hne)
  · rw [moveAssign_of_ne hr hp hne]
    split
    · rfl
    · rfl

/-- A move assignment whose owners are left. -/
theorem Sound.moveAssign (h : Sound s) (hr : s.read src = some r) (hp : s.read dst = some p)
    (hne : r ≠ p) (howners : ∀ a, src.owner = some a ∨ dst.owner = some a →
      ¬ (s.write dst none).Falls a)
    (hstep : InterfacePtr.moveAssign s dst src = some t) : t.Settled [] := by
  obtain ⟨hclear, hs⟩ := h.clear hp
  obtain ⟨hsettled, hreleased⟩ := hclear.released
  have hplaces : dst ≠ src := by
    rintro rfl
    exact hne (Option.some_inj.1 (hr.symm.trans hp))
  have hkept : ∀ place q, (place = src ∨ place = dst) → (s.write dst none).read place = some q →
      ((s.write dst none).release [p]).read place = some q := fun place q hplace hq => by
    rcases hreleased.falls place q hq with hread | ⟨owner, i, rfl, hfalls⟩
    · exact hread
    · refine absurd hfalls (howners owner ?_)
      rcases hplace with rfl | rfl
      · exact .inl rfl
      · exact .inr rfl
  have hsrc := hkept src r (.inl rfl) ((read_write_ne hplaces s none).trans hr)
  have hdst := hkept dst none (.inr rfl) (read_write_self hp none)
  rcases release_write dst p (s.write dst none) [p] with hwrite | ⟨a, howner, -, hgone⟩
  · rw [hs] at hwrite
    rw [moveAssign_of_ne hr hp hne, hwrite, read_write_self hdst, read_write_ne hplaces, hsrc]
      at hstep
    rw [← Option.some_inj.1 hstep, write_write_self]
    refine hsettled.write_write hdst hsrc hplaces fun b => ?_
    rw [pointsTo_none, pointsTo_cons, pointsTo_none, pointsTo_cons]
  · exact nomatch (read_eq_none howner hgone).symm.trans hdst

/-- A move assignment one of whose owners goes with the old target. -/
theorem Sound.moveAssign_fault (h : Sound s) (hr : s.read src = some r) (hp : s.read dst = some p)
    (hne : r ≠ p) {a : Nat} (howner : src.owner = some a ∨ dst.owner = some a)
    (hfalls : (s.write dst none).Falls a)
    (hstep : InterfacePtr.moveAssign s dst src = some t) : t.fault = true := by
  obtain ⟨hclear, hs⟩ := h.clear hp
  obtain ⟨hsettled, hreleased⟩ := hclear.released
  have hgone := hreleased.gone hsettled hfalls
  have hnone : (s.release [p]).read src = none ∨ (s.release [p]).read dst = none := by
    rcases release_write dst p (s.write dst none) [p] with hwrite | ⟨b, hdst, hb, -⟩
    · rw [hs] at hwrite
      have ha : (s.release [p]).object a = none := by
        have hcount := refCount_write dst p ((s.write dst none).release [p]) a
        rw [← hwrite, hgone] at hcount
        exact Option.map_eq_none_iff.1 hcount
      exact howner.imp (read_eq_none · ha) (read_eq_none · ha)
    · rw [hs] at hb
      exact .inr (read_eq_none hdst hb)
  rw [moveAssign_of_ne hr hp hne] at hstep
  rcases hnone with hnone | hnone
  · rw [hnone] at hstep
    rw [← Option.some_inj.1 hstep]
  · rw [hnone] at hstep
    split at hstep
    · next hdst => exact nomatch hdst
    · rw [← Option.some_inj.1 hstep]

def Edge (s : ObjectGraph) (a b : Nat) : Prop := ∃ i, s.read (.member a i) = some (some b)

/-- What falls with a pointer can be reached from its target. -/
theorem Sound.reached_of_falls (h : Sound s) {a : Nat} (ha : (s.object a).isSome)
    (hfalls : (s.write dst none).Falls a) : ∃ b, s.read dst = some (some b) ∧
      Relation.ReflTransGen (Edge s) b a := by
  induction hfalls with
  | intro a hstack hmember ih =>
    obtain ⟨place, hplace⟩ := held_pos_iff.1 ((h.alive a).2 ha)
    by_cases hdst : dst = place
    · exact ⟨a, hdst ▸ hplace, .refl⟩
    · have hread := (read_write_ne hdst s none).trans hplace
      rcases place with i | ⟨owner, i⟩
      · exact absurd hread (hstack i)
      · obtain ⟨o, ho, -⟩ := Option.bind_eq_some_iff.1 hplace
        obtain ⟨b, hb, hpath⟩ := ih owner i hread (Option.isSome_of_eq_some ho)
        exact ⟨b, hb, hpath.tail ⟨i, hplace⟩⟩

/-- In an acyclic graph no pointer brings its own owner down. -/
theorem Sound.not_falls_of_acyclic (h : Sound s)
    (hacyclic : ∀ a, ¬ Relation.TransGen (Edge s) a a) (hp : s.read dst = some p) {a : Nat}
    (howner : dst.owner = some a) : ¬ (s.write dst none).Falls a := by
  intro hfalls
  have ha : (s.object a).isSome := by
    refine Option.isSome_iff_ne_none.2 fun hnone => ?_
    exact nomatch (read_eq_none howner hnone).symm.trans hp
  obtain ⟨b, hb, hpath⟩ := h.reached_of_falls ha hfalls
  rcases dst with i | ⟨owner, i⟩
  · exact nomatch howner
  · obtain rfl := Option.some_inj.1 howner
    exact hacyclic owner (.head' ⟨i, hb⟩ hpath)

end MoveAssign

/-! ## Runs -/

/-- A step whose owners stay leaves the counts right. -/
theorem Sound.step_settled (h : Sound s) (howners : OwnersStay s op)
    (hstep : step s op = some t) : t.Settled [] := by
  rw [step, h.noFault] at hstep
  change apply s op = some t at hstep
  cases op with
  | construct =>
    rw [← Option.some_inj.1 hstep]
    exact settled_push (settled_none.2 h.settled)
  | make members =>
    rw [← Option.some_inj.1 hstep]
    exact h.make members
  | copyConstruct src =>
    obtain ⟨p, hp, rfl⟩ := Option.map_eq_some_iff.1 hstep
    exact settled_push (h.addRef hp).1
  | moveConstruct src =>
    obtain ⟨p, hp, rfl⟩ := Option.map_eq_some_iff.1 hstep
    exact settled_push ((settled_none.2 h.settled).write hp)
  | copyAssign dst src => exact h.copyAssign hstep
  | moveAssign dst src =>
    obtain ⟨r, hr, hrest⟩ := Option.bind_eq_some_iff.1 hstep
    obtain ⟨p, hp, hrest⟩ := Option.bind_eq_some_iff.1 hrest
    by_cases hne : r = p
    · rw [if_pos hne] at hrest
      exact Option.some_inj.1 hrest ▸ h.settled
    · exact h.moveAssign hr hp hne (howners r p hr hp hne) hstep
  | swap a b => exact h.swap hstep
  | destroy i =>
    obtain ⟨old, hold, rfl⟩ := Option.map_eq_some_iff.1 hstep
    exact h.destroy hold

/-- A step is right if and only if it is careful. -/
theorem Sound.forall_step_iff (h : Sound s) :
    (∀ t, step s op = some t → Right t) ↔ Careful s op := by
  constructor
  · intro hright
    have howners : OwnersStay s op := by
      cases op with
      | moveAssign dst src =>
        intro r p hr hp hne a howner hfalls
        obtain ⟨t, ht⟩ := Option.isSome_iff_exists.1 (isSome_moveAssign hr hp)
        have hfault := h.moveAssign_fault hr hp hne howner hfalls ht
        have hstep : InterfacePtr.step s (.moveAssign dst src) = some t := by
          rw [InterfacePtr.step, h.noFault]
          exact ht
        exact nomatch (hright t hstep).noFault.symm.trans hfault
      | _ => trivial
    exact ⟨howners, fun t ht => (hright t ht).few (h.step_settled howners ht)⟩
  · intro hcareful t ht
    exact (Sound.of_settled (h.step_settled hcareful.owners ht) (hcareful.few t ht)).toRight

theorem Sound.step (h : Sound s) (hcareful : Careful s op)
    (hstep : InterfacePtr.step s op = some t) : Sound t :=
  .of_settled (h.step_settled hcareful.owners hstep) (hcareful.few t hstep)

/-- **Assignments in object graphs**: from a sound graph a run uses nothing after its destruction
and has the counts right if and only if its steps are careful. -/
theorem assign_safe_iff (h : Sound s) (ops : List Op) :
    Safe s ops ↔ InterfacePtr.step.Meets Careful s ops := by
  exact Machine.always_iff (fun _ _ _ hs _ => hs.step) (fun _ _ hs _ => hs.forall_step_iff) h
    h.toRight

theorem sound_empty : Sound {} where
  noFault := rfl
  counted _ _ ho := nomatch object_eq_some.1 ho
  alive _ := iff_of_false (Nat.lt_irrefl 0) (nomatch ·)
  few _ := Nat.zero_le _

/-- A list of two objects, whose head is moved on. -/
def moveOn : List Op :=
  [.make 1, .make 0, .moveAssign (.member 0 0) (.stack 1), .moveAssign (.stack 0) (.member 0 0)]

/-- The head is deleted, and with it the member that is still to be read. -/
theorem not_safe_moveOn : ¬ Safe {} moveOn := by
  intro h
  have hfault : (InterfacePtr.step.run {} moveOn).map (·.fault) = some true := by decide +kernel
  obtain ⟨t, hrun, ht⟩ := Option.map_eq_some_iff.1 hfault
  exact nomatch (h moveOn t (List.prefix_refl _) hrun).noFault.symm.trans ht

/-- To make the list is safe, to move its head on is not careful. -/
theorem assign_safe_iff_sample :
    Safe {} (moveOn.take 3) ∧ ¬ InterfacePtr.step.Meets Careful {} moveOn := by
  refine ⟨(assign_safe_iff sound_empty (moveOn.take 3)).2 ?_,
    mt (assign_safe_iff sound_empty moveOn).2 not_safe_moveOn⟩
  have hfew : ∀ t : ObjectGraph,
      t.stack.length + Tokens.weight (·.elim 0 (·.members.length)) t.objects ≤ 2147483647 →
      ∀ a, t.held a ≤ 2147483647 := fun t ht a => Nat.le_trans (held_le t a) ht
  refine ⟨⟨trivial, fun t ht => ?_⟩, fun t ht => ?_⟩
  · obtain rfl := Option.some_inj.1 ht
    exact hfew _ (by decide)
  obtain rfl := Option.some_inj.1 ht
  refine ⟨⟨trivial, fun t ht => ?_⟩, fun t ht => ?_⟩
  · obtain rfl := Option.some_inj.1 ht
    exact hfew _ (by decide)
  obtain rfl := Option.some_inj.1 ht
  refine ⟨⟨fun _ _ _ _ _ a howner hfalls => ?_, fun t ht => ?_⟩, fun _ _ => trivial⟩
  · -- the owner is held by the first pointer on the stack
    obtain rfl : 0 = a := by simpa [Place.owner] using howner
    obtain ⟨-, hstack, -⟩ := hfalls
    exact hstack 0 rfl
  · have hcount : ∀ t ∈ InterfacePtr.step (make (make {} 1) 0)
        (.moveAssign (.member 0 0) (.stack 1)),
        t.stack.length + Tokens.weight (·.elim 0 (·.members.length)) t.objects ≤ 2147483647 := by
      decide +kernel
    exact hfew t (hcount t ht)

theorem not_assign_safe : ¬ ∀ (s : ObjectGraph) (ops : List Op), Sound s → Safe s ops :=
  fun h => not_safe_moveOn (h {} moveOn sound_empty)

end InterfacePtr

end Dcfpe.Base
