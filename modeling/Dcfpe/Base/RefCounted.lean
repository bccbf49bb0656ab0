import Dcfpe.Lib.Checked
import Dcfpe.Lib.Tokens

/-!
# Objects that hold each other

An object with a `RefCountedObjectModel` is deleted by the `Release` that takes its count to 0, and
the `InterfacePtr`s among its members go with it: each of them releases its own target, so that a
whole chain of objects can go.

`Settled` says that the count of each object is the number of pointers to it, where pointers that
are being destroyed still count.  `Settled.released` is what `Release` does to such objects: it
faults on none of them, and those that it deletes are those to which only pointers lead that go
with it (`Falls`).
-/

set_option autoImplicit false

namespace Dcfpe.Base

/-- An object of a class with a `RefCountedObjectModel`. -/
structure RefCountedObject where
  refCount : Int32
  /-- What its `InterfacePtr`s point to, in the order of their declarations. -/
  members : List (Option Nat)
  deriving DecidableEq, Repr

/-- The objects by their addresses, `none` for those that have been deleted, and the `InterfacePtr`s
on the stack. -/
structure ObjectGraph where
  objects : List (Option RefCountedObject) := []
  stack : List (Option Nat) := []
  /-- An object or a pointer has been used that has been destroyed. -/
  fault : Bool := false
  deriving DecidableEq, Repr

namespace ObjectGraph

/-- Where an `InterfacePtr` is. -/
inductive Place where
  | stack (i : Nat)
  | member (owner i : Nat)
  deriving DecidableEq, Repr

def object (s : ObjectGraph) (a : Nat) : Option RefCountedObject := s.objects[a]?.join

def setObject (s : ObjectGraph) (a : Nat) (o : Option RefCountedObject) : ObjectGraph :=
  { s with objects := s.objects.set a o }

/-- The `ptr_` of a pointer, if there is one at the place. -/
def read (s : ObjectGraph) : Place → Option (Option Nat)
  | .stack i => s.stack[i]?
  | .member owner i => (s.object owner).bind (·.members[i]?)

def write (s : ObjectGraph) (place : Place) (p : Option Nat) : ObjectGraph :=
  match place with
  | .stack i => { s with stack := s.stack.set i p }
  | .member owner i =>
    match s.object owner with
    | none => s
    | some o => s.setObject owner (some { o with members := o.members.set i p })

def addRef (s : ObjectGraph) : Option Nat → ObjectGraph
  | none => s
  | some a =>
    match s.object a with
    | none => { s with fault := true }
    | some o => s.setObject a (some { o with refCount := o.refCount + 1 })

/-- What is left to do when all objects are deleted. -/
def size (s : ObjectGraph) : Nat :=
  Tokens.weight (fun o => o.elim 0 (·.members.length + 1)) s.objects

variable {s t : ObjectGraph} {a : Nat} {o : RefCountedObject}

theorem object_eq_some : s.object a = some o ↔ s.objects[a]? = some (some o) :=
  Option.join_eq_some_iff

theorem size_setObject (h : s.object a = some o) (o' : Option RefCountedObject) :
    (s.setObject a o').size + (o.members.length + 1) =
      s.size + o'.elim 0 (·.members.length + 1) :=
  Tokens.weight_set _ (object_eq_some.1 h) o'

/-- The pointers of a list release their targets, one after the other, and so do the members of each
object that is deleted, the last one first. -/
def release (s : ObjectGraph) : List (Option Nat) → ObjectGraph
  | [] => s
  | none :: ps => s.release ps
  | some a :: ps =>
    match _h : s.object a with
    | none => { s with fault := true }
    | some o =>
      if o.refCount - 1 = 0 then (s.setObject a none).release (o.members.reverse ++ ps)
      else (s.setObject a (some { o with refCount := o.refCount - 1 })).release ps
termination_by ps => s.size + ps.length
decreasing_by
  · simp
  · have hsize := size_setObject _h none
    simp only [Option.elim_none] at hsize
    simp only [List.length_append, List.length_reverse, List.length_cons]
    omega
  · have hsize : (s.setObject a (some { o with refCount := o.refCount - 1 })).size +
        (o.members.length + 1) = s.size + (o.members.length + 1) := size_setObject _h _
    simp only [List.length_cons]
    omega

theorem release_cons (s : ObjectGraph) (a : Nat) (ps : List (Option Nat)) :
    s.release (some a :: ps) =
      match s.object a with
      | none => { s with fault := true }
      | some o =>
        if o.refCount - 1 = 0 then (s.setObject a none).release (o.members.reverse ++ ps)
        else (s.setObject a (some { o with refCount := o.refCount - 1 })).release ps := by
  rw [release]
  split
  · next h => rw [h]
  · next o h => rw [h]

theorem release_of_zero (ho : s.object a = some o) (hzero : o.refCount - 1 = 0)
    (ps : List (Option Nat)) :
    s.release (some a :: ps) = (s.setObject a none).release (o.members.reverse ++ ps) := by
  rw [release_cons, ho]
  exact if_pos hzero

theorem release_of_ne_zero (ho : s.object a = some o) (hne : o.refCount - 1 ≠ 0)
    (ps : List (Option Nat)) :
    s.release (some a :: ps) =
      (s.setObject a (some { o with refCount := o.refCount - 1 })).release ps := by
  rw [release_cons, ho]
  exact if_neg hne

/-! ## Objects and places -/

theorem object_setObject_self (h : s.object a = some o) (o' : Option RefCountedObject) :
    (s.setObject a o').object a = o' := by
  obtain ⟨hlt, -⟩ := List.getElem?_eq_some_iff.1 (object_eq_some.1 h)
  rw [object, setObject, List.getElem?_set_self hlt]
  rfl

theorem object_setObject_ne {b : Nat} (h : a ≠ b) (s : ObjectGraph)
    (o' : Option RefCountedObject) : (s.setObject a o').object b = s.object b := by
  rw [object, object, setObject, List.getElem?_set_ne h]

/-- How many of the pointers of a list point to an object. -/
def pointsTo (a : Nat) (ps : List (Option Nat)) : Nat :=
  Tokens.weight (fun p => if p = some a then 1 else 0) ps

/-- How many members of an object point to another one. -/
def membersTo (a : Nat) (o : Option RefCountedObject) : Nat := o.elim 0 (pointsTo a ·.members)

/-- How many pointers point to an object. -/
def held (s : ObjectGraph) (a : Nat) : Nat :=
  pointsTo a s.stack + Tokens.weight (membersTo a) s.objects

theorem held_setObject (h : s.object a = some o) (o' : Option RefCountedObject) (b : Nat) :
    (s.setObject a o').held b + pointsTo b o.members = s.held b + membersTo b o' := by
  have hset := Tokens.weight_set (membersTo b) (object_eq_some.1 h) o'
  show pointsTo b s.stack + _ + _ = pointsTo b s.stack + _ + _
  rw [Nat.add_assoc, Nat.add_assoc]
  exact congrArg (pointsTo b s.stack + ·) hset

theorem pointsTo_append (a : Nat) (ps qs : List (Option Nat)) :
    pointsTo a (ps ++ qs) = pointsTo a ps + pointsTo a qs := Tokens.weight_append _ ps qs

theorem pointsTo_reverse (a : Nat) (ps : List (Option Nat)) :
    pointsTo a ps.reverse = pointsTo a ps := Tokens.weight_perm _ ps.reverse_perm

theorem pointsTo_cons (a : Nat) (p : Option Nat) (ps : List (Option Nat)) :
    pointsTo a (p :: ps) = (if p = some a then 1 else 0) + pointsTo a ps :=
  Tokens.weight_cons _ _ _

theorem exists_pointsTo {ps : List (Option Nat)} (h : 0 < pointsTo a ps) :
    ∃ i : Nat, ps[i]? = some (some a) := by
  obtain ⟨i, p, hi, hp⟩ := Tokens.exists_pos_of_weight _ h
  split at hp
  · next hpa => exact ⟨i, hpa ▸ hi⟩
  · exact absurd hp (Nat.lt_irrefl 0)

theorem pointsTo_pos {ps : List (Option Nat)} {i : Nat} (h : ps[i]? = some (some a)) :
    0 < pointsTo a ps := by
  have hle := Tokens.le_weight (fun p => if p = some a then 1 else 0) (List.mem_of_getElem? h)
  rw [if_pos rfl] at hle
  exact hle

/-- An object is held if and only if there is a pointer to it. -/
theorem held_pos_iff : 0 < s.held a ↔ ∃ place, s.read place = some (some a) := by
  constructor
  · intro h
    rcases Nat.eq_zero_or_pos (pointsTo a s.stack) with hzero | hpos
    · rw [held, hzero, Nat.zero_add] at h
      obtain ⟨owner, o, ho, hpos⟩ := Tokens.exists_pos_of_weight _ h
      rcases o with _ | o
      · exact absurd hpos (Nat.lt_irrefl 0)
      · obtain ⟨i, hi⟩ := exists_pointsTo hpos
        exact ⟨.member owner i, Option.bind_eq_some_iff.2 ⟨o, object_eq_some.2 ho, hi⟩⟩
    · obtain ⟨i, hi⟩ := exists_pointsTo hpos
      exact ⟨.stack i, hi⟩
  · rintro ⟨⟨i⟩ | ⟨owner, i⟩, h⟩
    · exact Nat.lt_of_lt_of_le (pointsTo_pos h) (Nat.le_add_right _ _)
    · obtain ⟨o, ho, hi⟩ := Option.bind_eq_some_iff.1 h
      have hle := Tokens.le_weight (membersTo a) (List.mem_of_getElem? (object_eq_some.1 ho))
      have hpos := pointsTo_pos hi
      exact Nat.lt_of_lt_of_le (Nat.lt_of_lt_of_le hpos hle) (Nat.le_add_left _ _)

/-! ## What `Release` does -/

/-- The count of each object is that of the pointers to it, where those that are still to be
destroyed count too; and all of them have an object. -/
structure Settled (s : ObjectGraph) (ps : List (Option Nat)) : Prop where
  noFault : s.fault = false
  counted : ∀ a o, s.object a = some o → o.refCount = Int32.ofNat (s.held a + pointsTo a ps)
  bounded : ∀ a, s.held a + pointsTo a ps < 4294967296
  alive : ∀ a, 0 < s.held a + pointsTo a ps ↔ (s.object a).isSome

/-- An object to which no pointer leads, or only members of objects that fall too. -/
inductive Falls (s : ObjectGraph) : Nat → Prop
  | intro (a : Nat) (hstack : ∀ i, s.read (.stack i) ≠ some (some a))
      (hmember : ∀ owner i, s.read (.member owner i) = some (some a) → Falls s owner) : Falls s a

theorem ofNat_succ_sub (n : Nat) : Int32.ofNat (n + 1) - 1 = Int32.ofNat n := by
  rw [Int32.ofNat_add]
  exact Int32.add_sub_cancel _ _

theorem ofNat_eq_zero_iff {n : Nat} (h : n < 4294967296) : Int32.ofNat n = 0 ↔ n = 0 := by
  have hbmod := Checked.bmod_eq (x := n) (by omega) (by omega)
  rw [← Int32.toInt_inj, Int32.toInt_zero, Int32.toInt_ofNat']
  show (n : Int).bmod 4294967296 = 0 ↔ n = 0
  rw [hbmod]
  split
  · omega
  · omega

section Release

variable {ps : List (Option Nat)}

theorem pointsTo_self (a : Nat) (ps : List (Option Nat)) :
    pointsTo a (some a :: ps) = pointsTo a ps + 1 := by
  rw [pointsTo_cons, if_pos rfl, Nat.add_comm]

theorem pointsTo_ne {b : Nat} (h : a ≠ b) (ps : List (Option Nat)) :
    pointsTo b (some a :: ps) = pointsTo b ps := by
  rw [pointsTo_cons, if_neg (fun hab => h (Option.some_inj.1 hab)), Nat.zero_add]

/-- The count after a `Release`. -/
theorem Settled.refCount_sub (h : s.Settled (some a :: ps)) (ho : s.object a = some o) :
    o.refCount - 1 = Int32.ofNat (s.held a + pointsTo a ps) ∧
      (o.refCount - 1 = 0 ↔ s.held a + pointsTo a ps = 0) := by
  have hcount := h.counted a o ho
  have hbound := h.bounded a
  rw [pointsTo_self] at hcount hbound
  have hsub : o.refCount - 1 = Int32.ofNat (s.held a + pointsTo a ps) := by
    rw [hcount]
    exact ofNat_succ_sub _
  refine ⟨hsub, ?_⟩
  rw [hsub]
  exact ofNat_eq_zero_iff (by omega)

/-- A change of one object, when the counts of the others stay right. -/
theorem Settled.setObject {qs : List (Option Nat)} (h : s.Settled ps) (ho : s.object a = some o)
    {o' : Option RefCountedObject}
    (hothers : ∀ b, a ≠ b →
      (s.setObject a o').held b + pointsTo b qs = s.held b + pointsTo b ps)
    (hcounted : ∀ o'' ∈ o', o''.refCount =
      Int32.ofNat ((s.setObject a o').held a + pointsTo a qs))
    (hbounded : (s.setObject a o').held a + pointsTo a qs < 4294967296)
    (halive : 0 < (s.setObject a o').held a + pointsTo a qs ↔ o'.isSome) :
    (s.setObject a o').Settled qs := by
  refine ⟨h.noFault, fun b o'' ho'' => ?_, fun b => ?_, fun b => ?_⟩
  · by_cases hab : a = b
    · subst hab
      rw [object_setObject_self ho] at ho''
      exact hcounted o'' ho''
    · rw [object_setObject_ne hab] at ho''
      rw [hothers b hab]
      exact h.counted b o'' ho''
  · by_cases hab : a = b
    · exact hab ▸ hbounded
    · rw [hothers b hab]
      exact h.bounded b
  · by_cases hab : a = b
    · subst hab
      rw [object_setObject_self ho]
      exact halive
    · rw [hothers b hab, object_setObject_ne hab]
      exact h.alive b

/-- An object that gets another count is held as before. -/
theorem held_refCount (ho : s.object a = some o) (n : Int32) (b : Nat) :
    (s.setObject a (some { o with refCount := n })).held b = s.held b :=
  Nat.add_right_cancel (held_setObject ho _ b)

/-- A `Release` that leaves the object. -/
theorem Settled.keep (h : s.Settled (some a :: ps)) (ho : s.object a = some o)
    (hne : o.refCount - 1 ≠ 0) :
    (s.setObject a (some { o with refCount := o.refCount - 1 })).Settled ps := by
  obtain ⟨hsub, hzero⟩ := h.refCount_sub ho
  have hbounded := h.bounded a
  rw [pointsTo_self] at hbounded
  refine h.setObject ho (fun b hab => ?_) ?_ ?_ ?_
  · rw [held_refCount ho, pointsTo_ne hab]
  · rintro _ ⟨⟩
    rw [held_refCount ho]
    exact hsub
  · rw [held_refCount ho]
    omega
  · rw [held_refCount ho]
    exact iff_of_true (Nat.pos_of_ne_zero fun hn => hne (hzero.2 hn)) rfl

/-- A `Release` that deletes it. -/
theorem Settled.delete (h : s.Settled (some a :: ps)) (ho : s.object a = some o)
    (hdelete : o.refCount - 1 = 0) :
    s.held a = 0 ∧ (s.setObject a none).Settled (o.members.reverse ++ ps) := by
  have hzero := (h.refCount_sub ho).2.1 hdelete
  have hheld : ∀ b, (s.setObject a none).held b + pointsTo b (o.members.reverse ++ ps) =
      s.held b + pointsTo b ps := fun b => by
    have hset := held_setObject ho none b
    rw [pointsTo_append, pointsTo_reverse]
    change _ = s.held b + 0 at hset
    omega
  refine ⟨by omega, h.setObject ho (fun b hab => ?_) ?_ ?_ ?_⟩
  · rw [hheld, pointsTo_ne hab]
  · rintro _ ⟨⟩
  · rw [hheld]
    omega
  · rw [hheld, hzero]
    exact iff_of_false (Nat.lt_irrefl 0) Bool.false_ne_true

theorem pointsTo_none (b : Nat) (ps : List (Option Nat)) :
    pointsTo b (none :: ps) = pointsTo b ps := by
  rw [pointsTo_cons, if_neg (nomatch ·), Nat.zero_add]

theorem settled_none : s.Settled (none :: ps) ↔ s.Settled ps := by
  have hsame : ∀ b, pointsTo b (none :: ps) = pointsTo b ps := fun b => pointsTo_none b ps
  constructor
  · intro h
    exact ⟨h.noFault, fun b o ho => hsame b ▸ h.counted b o ho, fun b => hsame b ▸ h.bounded b,
      fun b => hsame b ▸ h.alive b⟩
  · intro h
    exact ⟨h.noFault, fun b o ho => (hsame b).symm ▸ h.counted b o ho,
      fun b => (hsame b).symm ▸ h.bounded b, fun b => (hsame b).symm ▸ h.alive b⟩

/-- **The rule for `Release`**: what each decrement keeps, and the deletion of an object that
nothing holds, all of it keeps, and it leaves the counts right. -/
theorem Settled.release {P : ObjectGraph → Prop}
    (hkeep : ∀ s a o, P s → s.object a = some o →
      P (s.setObject a (some { o with refCount := o.refCount - 1 })))
    (hdelete : ∀ s a o, P s → s.object a = some o → s.held a = 0 → P (s.setObject a none))
    (h : s.Settled ps) (hs : P s) : (s.release ps).Settled [] ∧ P (s.release ps) := by
  induction s, ps using ObjectGraph.release.induct with
  | case1 s =>
    rw [ObjectGraph.release]
    exact ⟨h, hs⟩
  | case2 s ps ih =>
    rw [ObjectGraph.release]
    exact ih (settled_none.1 h) hs
  | case3 s a ps ho =>
    have halive := (h.alive a).1 (by rw [pointsTo_self]; exact Nat.succ_pos _)
    rw [ho] at halive
    exact nomatch halive
  | case4 s a ps o ho hzero ih =>
    obtain ⟨hheld, hsettled⟩ := h.delete ho hzero
    rw [release_of_zero ho hzero]
    exact ih hsettled (hdelete s a o hs ho hheld)
  | case5 s a ps o ho hne ih =>
    rw [release_of_ne_zero ho hne]
    exact ih (h.keep ho hne) (hkeep s a o hs ho)

theorem read_keep (ho : s.object a = some o) (n : Int32) (place : Place) :
    (s.setObject a (some { o with refCount := n })).read place = s.read place := by
  rcases place with i | ⟨owner, i⟩
  · rfl
  · rw [read, read]
    by_cases hab : a = owner
    · subst hab
      rw [object_setObject_self ho, ho]
      rfl
    · rw [object_setObject_ne hab]

theorem read_delete_self (ho : s.object a = some o) (i : Nat) :
    (s.setObject a none).read (.member a i) = none := by
  rw [read, object_setObject_self ho]
  rfl

theorem read_delete_ne {owner : Nat} (h : a ≠ owner) (s : ObjectGraph) (i : Nat) :
    (s.setObject a none).read (.member owner i) = s.read (.member owner i) := by
  rw [read, read, object_setObject_ne h]

/-- A deletion changes no pointer that it leaves. -/
theorem read_of_delete (ho : s.object a = some o) {place : Place} {p : Option Nat}
    (h : (s.setObject a none).read place = some p) : s.read place = some p := by
  rcases place with i | ⟨owner, i⟩
  · exact h
  · by_cases hab : a = owner
    · subst hab
      rw [read_delete_self ho] at h
      exact nomatch h
    · rwa [read_delete_ne hab] at h

/-- The pointers of `s` that are not in `t` are those of objects that fall. -/
structure Released (s t : ObjectGraph) : Prop where
  sub : ∀ place p, t.read place = some p → s.read place = some p
  falls : ∀ place p, s.read place = some p →
    t.read place = some p ∨ ∃ owner i, place = .member owner i ∧ s.Falls owner

theorem Released.keep (h : Released s t) {a : Nat} {o : RefCountedObject}
    (ho : t.object a = some o) (n : Int32) :
    Released s (t.setObject a (some { o with refCount := n })) where
  sub place p hp := h.sub place p (read_keep ho n place ▸ hp)
  falls place p hp := (h.falls place p hp).imp_left fun ht => (read_keep ho n place).trans ht

theorem Released.delete (h : Released s t) {a : Nat} {o : RefCountedObject}
    (ho : t.object a = some o) (hheld : t.held a = 0) : Released s (t.setObject a none) := by
  have hnone : ∀ place, t.read place ≠ some (some a) := fun place hp =>
    absurd (held_pos_iff.2 ⟨place, hp⟩) (by omega)
  have hfalls : s.Falls a := by
    refine .intro a (fun i hp => ?_) fun owner i hp => ?_
    · rcases h.falls _ _ hp with hp | ⟨owner, j, hplace, -⟩
      · exact hnone _ hp
      · exact nomatch hplace
    · rcases h.falls _ _ hp with hp | ⟨owner', j, hplace, hfalls⟩
      · exact absurd hp (hnone _)
      · exact (Place.member.inj hplace).1 ▸ hfalls
  refine ⟨fun place p hp => h.sub place p (read_of_delete ho hp), fun place p hp => ?_⟩
  rcases h.falls place p hp with hp | hp
  · rcases place with i | ⟨owner, i⟩
    · exact .inl hp
    · by_cases hab : a = owner
      · exact .inr ⟨owner, i, rfl, hab ▸ hfalls⟩
      · exact .inl ((read_delete_ne hab t i).trans hp)
  · exact .inr hp

/-- **`Release`**: the counts are right afterwards, no pointer that is left has changed, and only
those of objects that fall are gone. -/
theorem Settled.released (h : s.Settled ps) :
    (s.release ps).Settled [] ∧ Released s (s.release ps) :=
  h.release (P := Released s) (fun _ _ _ ht ho => ht.keep ho _)
    (fun _ _ _ ht ho hheld => ht.delete ho hheld) ⟨fun _ _ => id, fun _ _ => .inl⟩

/-- An object that falls is not there when only pointers are left that it had, and each object that
is left has one. -/
theorem Released.gone (h : Released s t) (ht : t.Settled []) {a : Nat} (ha : s.Falls a) :
    t.object a = none := by
  induction ha with
  | intro a hstack _ ih =>
    refine Option.eq_none_iff_forall_ne_some.2 fun o ho => ?_
    have hpos : 0 < t.held a := (ht.alive a).2 (by rw [ho]; rfl)
    obtain ⟨i | ⟨owner, i⟩, hp⟩ := held_pos_iff.1 hpos
    · exact hstack i (h.sub _ _ hp)
    · have hgone := ih owner i (h.sub _ _ hp)
      rw [read, hgone] at hp
      exact nomatch hp

/-! ### A pointer that is written to in between -/

/-- The object that a pointer is a member of. -/
def Place.owner : Place → Option Nat
  | .stack _ => none
  | .member owner _ => some owner

theorem read_eq_none {place : Place} (h : place.owner = some a) (ho : s.object a = none) :
    s.read place = none := by
  rcases place with i | ⟨owner, i⟩
  · exact nomatch h
  · obtain rfl := Option.some_inj.1 h
    rw [read, ho]
    rfl

theorem setObject_setObject (s : ObjectGraph) (a : Nat) (o o' : Option RefCountedObject) :
    (s.setObject a o).setObject a o' = s.setObject a o' := by
  rw [setObject, setObject, setObject, List.set_set]

theorem write_member (ho : s.object a = some o) (i : Nat) (p : Option Nat) :
    s.write (.member a i) p = s.setObject a (some { o with members := o.members.set i p }) := by
  rw [write, ho]

theorem object_write_ne {place : Place} (h : place.owner ≠ some a) (s : ObjectGraph)
    (p : Option Nat) : (s.write place p).object a = s.object a := by
  rcases place with i | ⟨owner, i⟩
  · rfl
  · rcases ho : s.object owner with _ | o
    · rw [write, ho]
    · rw [write_member ho, object_setObject_ne fun hab => h (congrArg some hab)]

theorem write_setObject_ne {place : Place} (h : place.owner ≠ some a) (s : ObjectGraph)
    (p : Option Nat) (o' : Option RefCountedObject) :
    (s.write place p).setObject a o' = (s.setObject a o').write place p := by
  rcases place with i | ⟨owner, i⟩
  · rfl
  · have hne : a ≠ owner := fun hab => h (congrArg some hab.symm)
    rcases ho : s.object owner with _ | o
    · rw [write, write, ho, object_setObject_ne hne, ho]
    · rw [write_member ho, write_member ((object_setObject_ne hne s o').trans ho)]
      exact congrArg (fun objects => { s with objects }) (List.set_comm _ _ hne.symm)

/-- An object that has been deleted does not come back. -/
theorem object_release_none {b : Nat} (s : ObjectGraph) (ps : List (Option Nat))
    (h : s.object b = none) : (s.release ps).object b = none := by
  induction s, ps using ObjectGraph.release.induct with
  | case1 s => 
    rw [ObjectGraph.release]
    exact h
  | case2 s ps ih =>
    rw [ObjectGraph.release]
    exact ih h
  | case3 s a ps ho =>
    rw [release_cons, ho]
    exact h
  | case4 s a ps o ho hzero ih =>
    rw [release_of_zero ho hzero]
    refine ih ?_
    by_cases hab : a = b
    · subst hab
      exact object_setObject_self ho none
    · exact (object_setObject_ne hab s none).trans h
  | case5 s a ps o ho hne ih =>
    rw [release_of_ne_zero ho hne]
    refine ih ?_
    by_cases hab : a = b
    · subst hab
      exact nomatch ho.symm.trans h
    · exact (object_setObject_ne hab s _).trans h

theorem write_fault (s : ObjectGraph) (place : Place) (p : Option Nat) :
    { s with fault := true }.write place p = { s.write place p with fault := true } := by
  rcases place with i | ⟨owner, i⟩
  · rfl
  · rw [write, write]
    show (match s.object owner with | none => _ | some o => _) = _
    split
    · rfl
    · rfl

/-- A pointer can as well be written to after a `Release` that leaves its owner. -/
theorem release_write (place : Place) (p : Option Nat) (s : ObjectGraph)
    (ps : List (Option Nat)) :
    (s.write place p).release ps = (s.release ps).write place p ∨
      ∃ a, place.owner = some a ∧ ((s.write place p).release ps).object a = none ∧
        (s.release ps).object a = none := by
  induction s, ps using ObjectGraph.release.induct with
  | case1 s =>
    rw [ObjectGraph.release, ObjectGraph.release]
    exact .inl rfl
  | case2 s ps ih =>
    rw [ObjectGraph.release, ObjectGraph.release]
    exact ih
  | case3 s a ps ho =>
    by_cases hplace : place.owner = some a
    · refine .inr ⟨a, hplace, object_release_none _ _ ?_, object_release_none _ _ ho⟩
      rcases place with i | ⟨owner, i⟩
      · exact nomatch hplace
      · obtain rfl := Option.some_inj.1 hplace
        rw [write, ho]
        exact ho
    · rw [release_cons, release_cons, object_write_ne hplace, ho]
      exact .inl (write_fault s place p).symm
  | case4 s a ps o ho hzero ih =>
    rw [release_of_zero ho hzero]
    by_cases hplace : place.owner = some a
    · have hgone := object_setObject_self ho none
      refine .inr ⟨a, hplace, ?_, object_release_none _ _ hgone⟩
      rcases place with i | ⟨owner, i⟩
      · exact nomatch hplace
      · obtain rfl := Option.some_inj.1 hplace
        rw [write_member ho, release_of_zero (o := { o with members := o.members.set i p })
          (object_setObject_self ho _) hzero, setObject_setObject]
        exact object_release_none _ _ hgone
    · rw [release_of_zero ((object_write_ne hplace s p).trans ho) hzero,
        write_setObject_ne hplace]
      exact ih
  | case5 s a ps o ho hne ih =>
    rw [release_of_ne_zero ho hne]
    by_cases hplace : place.owner = some a
    · rcases place with i | ⟨owner, i⟩
      · exact nomatch hplace
      · obtain rfl := Option.some_inj.1 hplace
        rw [write_member ho, release_of_ne_zero (o := { o with members := o.members.set i p })
          (object_setObject_self ho _) hne, setObject_setObject]
        rw [write_member (object_setObject_self ho _), setObject_setObject] at ih
        exact ih
    · rw [release_of_ne_zero ((object_write_ne hplace s p).trans ho) hne,
        write_setObject_ne hplace]
      exact ih

/-! ### Pointers that are written to -/

/-- Other pointers, the same objects with the same counts. -/
theorem Settled.congr {qs : List (Option Nat)} (h : s.Settled ps) (hfault : t.fault = s.fault)
    (hcount : ∀ b, (t.object b).map (·.refCount) = (s.object b).map (·.refCount))
    (hheld : ∀ b, t.held b + pointsTo b qs = s.held b + pointsTo b ps) : t.Settled qs := by
  refine ⟨hfault.trans h.noFault, fun b o ho => ?_, fun b => ?_, fun b => ?_⟩
  · have hb := hcount b
    rw [ho] at hb
    obtain ⟨o', ho', hrefCount⟩ := Option.map_eq_some_iff.1 hb.symm
    rw [hheld, ← h.counted b o' ho', hrefCount]
  · rw [hheld]
    exact h.bounded b
  · rw [hheld, h.alive, ← Option.isSome_map (f := (·.refCount)), ← hcount b, Option.isSome_map]

theorem refCount_write (place : Place) (p : Option Nat) (s : ObjectGraph) (b : Nat) :
    ((s.write place p).object b).map (·.refCount) = (s.object b).map (·.refCount) := by
  by_cases hplace : place.owner = some b
  · rcases place with i | ⟨owner, i⟩
    · exact nomatch hplace
    · obtain rfl := Option.some_inj.1 hplace
      rcases ho : s.object owner with _ | o
      · rw [write, ho, ho]
      · rw [write_member ho, object_setObject_self ho]
        rfl
  · rw [object_write_ne hplace]

theorem held_write {place : Place} {old : Option Nat} (h : s.read place = some old)
    (p : Option Nat) (b : Nat) :
    (s.write place p).held b + (if old = some b then 1 else 0) =
      s.held b + if p = some b then 1 else 0 := by
  rcases place with i | ⟨owner, i⟩
  · have hset := Tokens.weight_set (fun p => if p = some b then 1 else 0) h p
    show pointsTo b (s.stack.set i p) + _ + _ = pointsTo b s.stack + _ + _
    rw [Nat.add_right_comm, Nat.add_right_comm (pointsTo b s.stack)]
    exact congrArg (· + Tokens.weight (membersTo b) s.objects) hset
  · obtain ⟨o, ho, hi⟩ := Option.bind_eq_some_iff.1 h
    have hset : pointsTo b (o.members.set i p) + _ = pointsTo b o.members + _ :=
      Tokens.weight_set (fun p => if p = some b then 1 else 0) hi p
    have hheld : _ + _ = _ + pointsTo b (o.members.set i p) :=
      held_setObject ho (some { o with members := o.members.set i p }) b
    rw [write_member ho]
    omega

theorem fault_write (s : ObjectGraph) (place : Place) (p : Option Nat) :
    (s.write place p).fault = s.fault := by
  rcases place with i | ⟨owner, i⟩
  · rfl
  · rw [ObjectGraph.write]
    split
    · rfl
    · rfl

/-- Writing a pointer that is to be destroyed leaves the one that has been there. -/
theorem Settled.write {place : Place} {p old : Option Nat} (h : s.Settled (p :: ps))
    (hread : s.read place = some old) : (s.write place p).Settled (old :: ps) := by
  refine h.congr (fault_write s place p) (refCount_write place p s) fun b => ?_
  have hheld := held_write hread p b
  rw [pointsTo_cons, pointsTo_cons]
  omega

theorem read_write_self {place : Place} {old : Option Nat} (h : s.read place = some old)
    (p : Option Nat) : (s.write place p).read place = some p := by
  rcases place with i | ⟨owner, i⟩
  · exact List.getElem?_set_self (List.getElem?_eq_some_iff.1 h).1
  · obtain ⟨o, ho, hi⟩ := Option.bind_eq_some_iff.1 h
    rw [write_member ho, read, object_setObject_self ho]
    exact List.getElem?_set_self (List.getElem?_eq_some_iff.1 hi).1

theorem read_write_ne {place place' : Place} (h : place ≠ place') (s : ObjectGraph)
    (p : Option Nat) : (s.write place p).read place' = s.read place' := by
  rcases place with i | ⟨owner, i⟩ <;> rcases place' with j | ⟨owner', j⟩
  · exact List.getElem?_set_ne fun hij => h (congrArg Place.stack hij)
  · rfl
  · rw [write]
    split
    · rfl
    · rfl
  · by_cases howner : owner = owner'
    · subst howner
      have hij : i ≠ j := fun hij => h (congrArg (Place.member owner) hij)
      rcases ho : s.object owner with _ | o
      · rw [write, ho]
      · rw [write_member ho, read, read, object_setObject_self ho, ho]
        exact List.getElem?_set_ne hij
    · have hne : (Place.member owner i).owner ≠ some owner' := fun hab =>
        howner (Option.some_inj.1 hab)
      rw [read, read, object_write_ne hne]

/-- Two pointers that get each other's targets, or one of them and nothing. -/
theorem Settled.write_write {place place' : Place} {p r x y : Option Nat} (h : s.Settled ps)
    (hp : s.read place = some p) (hr : s.read place' = some r) (hne : place ≠ place')
    (hsum : ∀ b, pointsTo b [x, y] = pointsTo b [p, r]) :
    ((s.write place x).write place' y).Settled ps := by
  refine h.congr ((fault_write _ _ _).trans (fault_write _ _ _)) (fun b => ?_) fun b => ?_
  · exact (refCount_write place' y _ b).trans (refCount_write place x s b)
  · have hx := held_write hp x b
    have hy := held_write ((read_write_ne hne s x).trans hr) y b
    have hb := hsum b
    rw [pointsTo_cons, pointsTo_cons, pointsTo_cons, pointsTo_cons] at hb
    omega

theorem write_write_self (place : Place) (s : ObjectGraph) (p q : Option Nat) :
    (s.write place p).write place q = s.write place q := by
  rcases place with i | ⟨owner, i⟩
  · rw [write, write, write, List.set_set]
  · rcases ho : s.object owner with _ | o
    · have hsame : s.write (.member owner i) p = s := by rw [write, ho]
      rw [hsame]
    · rw [write_member ho, write_member (object_setObject_self ho _), write_member ho,
        setObject_setObject, List.set_set]

theorem write_read {place : Place} {p : Option Nat} (h : s.read place = some p) :
    s.write place p = s := by
  rcases place with i | ⟨owner, i⟩
  · obtain ⟨hlt, rfl⟩ := List.getElem?_eq_some_iff.1 h
    rw [write, List.set_getElem_self]
  · obtain ⟨o, ho, hi⟩ := Option.bind_eq_some_iff.1 h
    obtain ⟨hlt, rfl⟩ := List.getElem?_eq_some_iff.1 hi
    obtain ⟨hlt', hobject⟩ := List.getElem?_eq_some_iff.1 (object_eq_some.1 ho)
    rw [write_member ho, List.set_getElem_self, setObject, ← hobject, List.set_getElem_self]

/-- A new reference, for a pointer that is to be made. -/
theorem Settled.addRef {p : Option Nat} (h : s.Settled ps)
    (halive : ∀ a, p = some a → (s.object a).isSome)
    (hbound : ∀ a, s.held a + pointsTo a (p :: ps) < 4294967296) :
    (s.addRef p).Settled (p :: ps) ∧ ∀ place, (s.addRef p).read place = s.read place := by
  rcases p with _ | a
  · refine ⟨h.congr rfl (fun _ => rfl) fun b => ?_, fun _ => rfl⟩
    rw [ObjectGraph.addRef, pointsTo_none]
  · obtain ⟨o, ho⟩ := Option.isSome_iff_exists.1 (halive a rfl)
    rw [ObjectGraph.addRef, ho]
    refine ⟨h.setObject ho (fun b hab => ?_) ?_ ?_ ?_, read_keep ho _⟩
    · rw [held_refCount ho, pointsTo_ne hab]
    · rintro _ ⟨⟩
      rw [held_refCount ho, pointsTo_self, ← Nat.add_assoc, Int32.ofNat_add, ← h.counted a o ho]
      rfl
    · rw [held_refCount ho]
      exact hbound a
    · rw [pointsTo_self]
      exact iff_of_true (Nat.succ_pos _) rfl

end Release

end ObjectGraph

end Dcfpe.Base
