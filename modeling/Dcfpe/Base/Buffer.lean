import Dcfpe.Lib.Checked
import Dcfpe.Lib.Machine
import Dcfpe.Lib.Memory

/-!
# Buffers

`BufferImpl` keeps its contents at the front of a block that it replaces by a larger one when it
needs to.  Sizes are `int32_t`: their sums, and the capacity that `grow` rounds up, wrap.

An operation has no result if it touches a byte outside the block.  What a new block contains is up
to the allocator, so it is an argument of the operations that may need one.  The bytes given to
`append` are the caller's, in a block of their own.
-/

set_option autoImplicit false

namespace Dcfpe.Base

structure BufferImpl where
  ptr : List UInt8
  size : Int
  capacity : Int
  deriving DecidableEq, Repr

namespace BufferImpl

/-- What an `int32_t` makes of a result. -/
def wrap (x : Int) : Int := x.bmod 4294967296

/-- A multiple of eight. -/
def roundUp (dest : Int) : Int := wrap (wrap (dest + 7) >>> (3 : Nat) <<< (3 : Nat))

/-- `new char[n]`. -/
def newBlock (n : Int) (fresh : Nat → UInt8) : List UInt8 := (List.range n.toNat).map fresh

/-- The constructor.  There is no block of negative size. -/
def create (length : Int) (fresh : Nat → UInt8) : Option BufferImpl :=
  let length := if length ≤ 0 then 8 else length
  let length := roundUp length
  if length < 0 then none
  else some { ptr := newBlock length fresh, size := 0, capacity := length }

def grow (dest : Int) (fresh : Nat → UInt8) (s : BufferImpl) : Option BufferImpl :=
  let newCapacity := roundUp dest
  if newCapacity > s.capacity then do
    let buffer ← Memory.write (newBlock newCapacity fresh) 0 (← Memory.read s.ptr 0 s.size)
    some { s with ptr := buffer, capacity := newCapacity }
  else some s

def append (buffer : List UInt8) (size : Int) (fresh : Nat → UInt8) (s : BufferImpl) :
    Option (BufferImpl × Int) := do
  let available := wrap (s.capacity - s.size)
  let s ←
    if available < size then s.grow (wrap (wrap (size + s.size) <<< (1 : Nat))) fresh else some s
  let ptr ← Memory.write s.ptr s.size (← Memory.read buffer 0 size)
  some ({ s with ptr, size := wrap (s.size + size) }, 0)

def resize (size : Int) (fresh : Nat → UInt8) (s : BufferImpl) : Option (BufferImpl × Int) := do
  let old := s.size
  let s ← s.grow size fresh
  some ({ s with size }, old)

def reserve (size : Int) (fresh : Nat → UInt8) (s : BufferImpl) : Option (BufferImpl × Int) := do
  let old := s.capacity
  let s ← s.grow size fresh
  some (s, old)

def memset (start : Int) (c : UInt8) (size : Int) (s : BufferImpl) : Option (BufferImpl × Int) := do
  let stop := if size ≤ 0 then s.size else min (wrap (start + size)) s.size
  let ptr ← Memory.fill s.ptr start stop c
  some ({ s with ptr }, wrap (stop - start))

inductive Call where
  | append (buffer : List UInt8) (size : Int) (fresh : Nat → UInt8)
  | resize (size : Int) (fresh : Nat → UInt8)
  | reserve (size : Int) (fresh : Nat → UInt8)
  | memset (start : Int) (c : UInt8) (size : Int)

/-- A call, with what it returns. -/
def call (s : BufferImpl) : Call → Option (BufferImpl × Int)
  | .append buffer size fresh => s.append buffer size fresh
  | .resize size fresh => s.resize size fresh
  | .reserve size fresh => s.reserve size fresh
  | .memset start c size => s.memset start c size

def step : Machine BufferImpl Call := fun s c => (s.call c).map Prod.fst

/-! ## What is asked of the calls, and of the buffer -/

def content (s : BufferImpl) : List UInt8 := s.ptr.take s.size.toNat

/-- The calls that are allowed: sizes are not negative, the caller of `append` has that many bytes,
`memset` starts inside the content, and the resulting size is an `int32_t`. -/
def Admitted (s : BufferImpl) : Call → Prop
  | .append buffer size _ => 0 ≤ size ∧ size ≤ buffer.length ∧ s.size + size ≤ 2147483647
  | .resize size _ => 0 ≤ size ∧ size ≤ 2147483647
  | .reserve size _ => 0 ≤ size ∧ size ≤ 2147483647
  | .memset start _ size => 0 ≤ start ∧ start ≤ s.size ∧ 0 ≤ size ∧ size ≤ 2147483647

/-- What a call does to a list of bytes.  The bytes that `resize` adds may be any, and a `memset` of
no bytes goes to the end. -/
def Applies (content : List UInt8) : Call → List UInt8 → Prop
  | .append buffer size _, content' => content' = content ++ buffer.take size.toNat
  | .resize size _, content' =>
    content'.length = size ∧ content'.take content.length = content.take size.toNat
  | .reserve _ _, content' => content' = content
  | .memset start c size, content' =>
    let stop := if size ≤ 0 then content.length else min (start + size).toNat content.length
    content' =
      content.take start.toNat ++ List.replicate (stop - start.toNat) c ++ content.drop stop

/-- The call touches no byte outside the block, leaves the size within the capacity, and does to the
content what it would to a list. -/
def Safe (s : BufferImpl) (c : Call) : Prop :=
  ∃ t r, s.call c = some (t, r) ∧ 0 ≤ t.size ∧ t.size ≤ t.capacity ∧
    Applies s.content c t.content

/-- The sums and the rounding do not wrap where it matters. -/
def WithinLimits (s : BufferImpl) : Call → Prop
  | .append _ size _ => size ≤ s.capacity - s.size ∨ s.size + size ≤ 1073741820
  | .resize size _ => size ≤ 2147483640
  | .reserve _ _ => True
  | .memset start _ size => size ≤ 0 ∨ start + size ≤ 2147483647

instance decidableAdmitted (s : BufferImpl) : ∀ c, Decidable (s.Admitted c)
  | .append _ _ _ => inferInstanceAs (Decidable (_ ∧ _ ∧ _))
  | .resize _ _ => inferInstanceAs (Decidable (_ ∧ _))
  | .reserve _ _ => inferInstanceAs (Decidable (_ ∧ _))
  | .memset _ _ _ => inferInstanceAs (Decidable (_ ∧ _ ∧ _ ∧ _))

instance decidableWithinLimits (s : BufferImpl) : ∀ c, Decidable (s.WithinLimits c)
  | .append _ _ _ => inferInstanceAs (Decidable (_ ∨ _))
  | .resize _ _ => inferInstanceAs (Decidable (_ ≤ _))
  | .reserve _ _ => inferInstanceAs (Decidable True)
  | .memset _ _ _ => inferInstanceAs (Decidable (_ ∨ _))

/-! ## Growing -/

/-- The capacity is that of the block, and the content fits in it. -/
structure WF (s : BufferImpl) : Prop where
  length : (s.ptr.length : Int) = s.capacity
  nonneg : 0 ≤ s.size
  le : s.size ≤ s.capacity
  bound : s.capacity ≤ 2147483640

variable {s t : BufferImpl}

/-- What a safe call leaves. -/
structure Done (s : BufferImpl) (c : Call) (t : BufferImpl) (r : Int) : Prop where
  call : s.call c = some (t, r)
  wf : t.WF
  applies : Applies s.content c t.content

theorem Done.safe {c : Call} {r : Int} (h : Done s c t r) : s.Safe c :=
  ⟨t, r, h.call, h.wf.nonneg, h.wf.le, h.applies⟩

def zeros : Nat → UInt8 := fun _ => 0

end BufferImpl

end Dcfpe.Base
