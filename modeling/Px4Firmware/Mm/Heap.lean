import Px4Firmware.Lib.Memory

/-!
# Px4Firmware.Mm.Heap

**The memory manager** (`nuttx/mm`): the heap of `malloc`, `free`, `realloc` and `memalign`, in the
memory where it is. The chunks of a region follow each other; each begins with its size and the size
of the chunk before it, and bit 31 of the latter says that the chunk is allocated. A free chunk is
also a node of a doubly linked list, which is sorted by size and into which the array `g_nodelist`
hooks at the powers of two.

A `DEBUGASSERT` that fails, and a loop that goes on for longer than there is memory, are `none`.
-/

namespace Px4Firmware.Mm

open Lib Lib.Memory

def mmMinShift : Nat := 4
def mmMaxShift : Nat := 22
def mmMinChunk : Nat := 2 ^ mmMinShift
def mmMaxChunk : Nat := 2 ^ mmMaxShift
def mmNnodes : Nat := mmMaxShift - mmMinShift + 1
def mmGranMask : Nat := mmMinChunk - 1
def mmAllocBit : Nat := 0x80000000
def sizeofMmAllocnode : Nat := 8
def sizeofMmFreenode : Nat := 16

/-- The values of a `size_t`. -/
def sizeT (n : Nat) : Nat := n % 2 ^ 32

def mmAlignDown (a : Nat) : Nat := a / mmMinChunk * mmMinChunk

def mmAlignUp (a : Nat) : Nat := mmAlignDown (sizeT (a + mmGranMask))

/-! ### The nodes -/

section

variable (m : Memory) (node v : Nat)

def size : Nat := m.word node
def preceding : Nat := m.word (node + 4)
def flink : Nat := m.word (node + 8)
def blink : Nat := m.word (node + 12)

def setSize : Memory := m.setWord node v
def setPreceding : Memory := m.setWord (node + 4) v
def setFlink : Memory := m.setWord (node + 8) v
def setBlink : Memory := m.setWord (node + 12) v

/-- Whether the node is one of a free chunk. -/
def isFree : Prop := preceding m node &&& mmAllocBit = 0

instance : Decidable (isFree m node) := instDecidableEqNat ..

/-- `node->preceding = size | (node->preceding & MM_ALLOC_BIT)` -/
def updatePreceding : Memory := setPreceding m node (v ||| (preceding m node &&& mmAllocBit))

/-- `node->preceding |= MM_ALLOC_BIT` -/
def allocate : Memory := setPreceding m node (preceding m node ||| mmAllocBit)

/-- `node->preceding &= ~MM_ALLOC_BIT` -/
def release : Memory := setPreceding m node (preceding m node &&& (mmAllocBit - 1))

end

/-- The variables of the memory manager: where `g_nodelist` is, `g_heapstart` and `g_heapend` for
each region, and `g_heapsize`. -/
structure Globals where
  nodelist : Nat
  regions : List (Nat × Nat)
  heapsize : Nat

/-- `&g_nodelist[ndx]` -/
def Globals.hook (g : Globals) (ndx : Nat) : Nat := g.nodelist + sizeofMmFreenode * ndx

/-- No list of nodes is longer. -/
def Globals.bound (g : Globals) : Nat := g.heapsize + mmNnodes

/-! ### The list of free chunks -/

def mmSize2ndxLoop (ndx size : Nat) : Nat :=
  if size > 1 then mmSize2ndxLoop (ndx + 1) (size / 2) else ndx
termination_by size

def mmSize2ndx (size : Nat) : Nat :=
  if size ≥ mmMaxChunk then mmNnodes - 1 else mmSize2ndxLoop 0 (size / 2 ^ mmMinShift)

/-- Take a node out of the list. -/
def unlink (m : Memory) (node : Nat) : Option Memory :=
  if blink m node = 0 then none
  else
    let m := setFlink m (blink m node) (flink m node)
    some (if flink m node ≠ 0 then setBlink m (flink m node) (blink m node) else m)

/-- The loop of `mm_addfreechunk`: between which nodes the new one goes. -/
def findPlace (m : Memory) (newSize : Nat) : Nat → Nat → Nat → Option (Nat × Nat)
  | 0, _, _ => none
  | fuel + 1, prev, next =>
      if next ≠ 0 ∧ size m next ≠ 0 ∧ size m next < newSize then
        findPlace m newSize fuel next (flink m next)
      else some (prev, next)

/-- Put a node in the list. -/
def linkIn (m : Memory) (prev node next : Nat) : Memory :=
  let m := setFlink m prev node
  let m := setBlink m node prev
  let m := setFlink m node next
  if next ≠ 0 then setBlink m next node else m

def mmAddfreechunk (g : Globals) (m : Memory) (node : Nat) : Option Memory := do
  let ndx := mmSize2ndx (size m node)
  let (prev, next) ← findPlace m (size m node) g.bound (g.hook ndx) (flink m (g.hook ndx))
  some (linkIn m prev node next)

/-! ### Initialization -/

/-- Link the hooks. -/
def linkHooks (g : Globals) (m : Memory) : Memory :=
  (List.range (mmNnodes - 1)).foldl (fun m i =>
    setBlink (setFlink m (g.hook i) (g.hook (i + 1))) (g.hook (i + 1)) (g.hook i)) m

def mmAddregion (g : Globals) (m : Memory) (heapstart heapsize : Nat) :
    Option (Globals × Memory) := do
  let heapbase := mmAlignUp heapstart
  let heapend := mmAlignDown (sizeT (heapstart + heapsize))
  let heapsize := heapend - heapbase
  let g := { g with heapsize := sizeT (g.heapsize + heapsize) }
  let m := setSize m heapbase sizeofMmAllocnode
  let m := setPreceding m heapbase mmAllocBit
  let node := heapbase + sizeofMmAllocnode
  let m := setSize m node (heapsize - 2 * sizeofMmAllocnode)
  let m := setPreceding m node sizeofMmAllocnode
  let last := heapend - sizeofMmAllocnode
  let m := setSize m last sizeofMmAllocnode
  let m := setPreceding m last (size m node ||| mmAllocBit)
  let g := { g with regions := g.regions ++ [(heapbase, last)] }
  let m ← mmAddfreechunk g m node
  some (g, m)

def mmInitialize (nodelist : Nat) (m : Memory) (heapstart heapsize : Nat) :
    Option (Globals × Memory) :=
  let g : Globals := { nodelist, regions := [], heapsize := 0 }
  let m := m.fill nodelist 0 (sizeofMmFreenode * mmNnodes)
  mmAddregion g (linkHooks g m) heapstart heapsize

/-! ### Allocation -/

/-- The loop of `malloc`: the first node that is large enough. -/
def findChunk (m : Memory) (needed : Nat) : Nat → Nat → Option Nat
  | 0, _ => none
  | fuel + 1, node =>
      if node ≠ 0 ∧ size m node < needed then findChunk m needed fuel (flink m node)
      else some node

/-- Take a chunk that was found, and give back what is too much of it. -/
def takeChunk (g : Globals) (m : Memory) (node needed : Nat) : Option Memory := do
  let m ← unlink m node
  let remaining := size m node - needed
  let m ←
    if remaining ≥ sizeofMmFreenode then
      let next := node + size m node
      let remainder := node + needed
      let m := setSize m remainder remaining
      let m := setPreceding m remainder needed
      let m := setSize m node needed
      let m := updatePreceding m next remaining
      mmAddfreechunk g m remainder
    else some m
  some (allocate m node)

def malloc (g : Globals) (m : Memory) (request : Nat) : Option (Memory × Nat) :=
  if request = 0 then some (m, 0)
  else do
    let needed := mmAlignUp (sizeT (request + sizeofMmAllocnode))
    let ndx := if needed ≥ mmMaxChunk then mmNnodes - 1 else mmSize2ndx needed
    let node ← findChunk m needed g.bound (flink m (g.hook ndx))
    if node = 0 then some (m, 0)
    else do
      let m ← takeChunk g m node needed
      some (m, node + sizeofMmAllocnode)

def zalloc (g : Globals) (m : Memory) (request : Nat) : Option (Memory × Nat) := do
  let (m, alloc) ← malloc g m request
  some (if alloc ≠ 0 then m.fill alloc 0 request else m, alloc)

def calloc (g : Globals) (m : Memory) (n elemSize : Nat) : Option (Memory × Nat) :=
  if n > 0 ∧ elemSize > 0 then zalloc g m (sizeT (n * elemSize)) else some (m, 0)

/-- The chunk after a freed one is merged with it if it is free too: the memory then, and the node
after both. -/
def mergeNext (m : Memory) (node : Nat) : Option (Memory × Nat) :=
  let next := node + size m node
  if isFree m next then do
    let andbeyond := next + size m next
    let m ← unlink m next
    let m := setSize m node (size m node + size m next)
    let m := updatePreceding m andbeyond (size m node)
    some (m, andbeyond)
  else some (m, next)

/-- The chunk before a freed one is merged with it if it is free too: the memory then, and the node
of both. -/
def mergePrev (m : Memory) (node next : Nat) : Option (Memory × Nat) :=
  let prev := node - preceding m node
  if isFree m prev then do
    let m ← unlink m prev
    let m := setSize m prev (size m prev + size m node)
    let m := updatePreceding m next (size m prev)
    some (m, prev)
  else some (m, node)

def free (g : Globals) (m : Memory) (mem : Nat) : Option Memory :=
  if mem = 0 then some m
  else do
    let node := mem - sizeofMmAllocnode
    let m := release m node
    let (m, next) ← mergeNext m node
    let (m, node) ← mergePrev m node next
    mmAddfreechunk g m node

def mmShrinkchunk (g : Globals) (m : Memory) (node newSize : Nat) : Option Memory :=
  let next := node + size m node
  if isFree m next then do
    let andbeyond := next + size m next
    let m ← unlink m next
    let newnode := node + newSize
    let m := setSize m newnode (size m next + size m node - newSize)
    let m := setPreceding m newnode newSize
    let m := setSize m node newSize
    let m := updatePreceding m andbeyond (size m newnode)
    mmAddfreechunk g m newnode
  else if size m node ≥ newSize + sizeofMmFreenode then
    let newnode := node + newSize
    let m := setSize m newnode (size m node - newSize)
    let m := setPreceding m newnode newSize
    let m := setSize m node newSize
    let m := setPreceding m next (size m newnode ||| mmAllocBit)
    mmAddfreechunk g m newnode
  else some m

/-! ### Reallocation -/

/-- How much `realloc` takes from the chunk before and from the chunk after. -/
def takes (needed prevsize nextsize : Nat) : Nat × Nat :=
  if prevsize > 0 ∧ (nextsize ≥ prevsize ∨ nextsize = 0) then
    if needed > prevsize then (prevsize, needed - prevsize) else (needed, 0)
  else if nextsize > 0 ∧ needed ≠ 0 then
    if needed > nextsize then (needed - nextsize, nextsize) else (0, needed)
  else (0, 0)

/-- Extend a chunk into the free chunk before it, and move what is in it: the memory then, and the
node. -/
def extendPrev (g : Globals) (m : Memory) (oldnode prev next prevsize takeprev : Nat) :
    Option (Memory × Nat) := do
  let oldsize := size m oldnode
  let m ← unlink m prev
  let newnode := oldnode - takeprev
  let m ←
    if takeprev < prevsize then
      let m := setSize m prev (size m prev - takeprev)
      let m := setSize m newnode (oldsize + takeprev)
      let m := setPreceding m newnode (size m prev ||| mmAllocBit)
      let m := updatePreceding m next (size m newnode)
      mmAddfreechunk g m prev
    else
      let m := setSize m newnode (size m newnode + oldsize)
      let m := allocate m newnode
      some (updatePreceding m next (size m newnode))
  let newmem := newnode + sizeofMmAllocnode
  let oldmem := oldnode + sizeofMmAllocnode
  some (m.copy newmem oldmem (size m newnode - sizeofMmAllocnode), newnode)

/-- Extend a chunk into the free chunk after it. -/
def extendNext (g : Globals) (m : Memory) (node next nextsize takenext : Nat) : Option Memory := do
  let oldsize := size m node
  let andbeyond := next + nextsize
  let m ← unlink m next
  let m := setSize m node (oldsize + takenext)
  let newnode := node + size m node
  if takenext < nextsize then
    let m := setSize m newnode (nextsize - takenext)
    let m := setPreceding m newnode (size m node)
    let m := updatePreceding m andbeyond (size m newnode)
    mmAddfreechunk g m newnode
  else some (updatePreceding m andbeyond (size m node))

def realloc (g : Globals) (m : Memory) (oldmem request : Nat) : Option (Memory × Nat) :=
  if oldmem = 0 then malloc g m request
  else if request = 0 then do
    let m ← free g m oldmem
    some (m, 0)
  else
    let needed := mmAlignUp (sizeT (request + sizeofMmAllocnode))
    let oldnode := oldmem - sizeofMmAllocnode
    let oldsize := size m oldnode
    if needed ≤ oldsize then do
      let m ← if needed < oldsize then mmShrinkchunk g m oldnode needed else some m
      some (m, oldmem)
    else
      let next := oldnode + oldsize
      let nextsize := if isFree m next then size m next else 0
      let prev := oldnode - (preceding m oldnode &&& (mmAllocBit - 1))
      let prevsize := if isFree m prev then size m prev else 0
      if nextsize + prevsize + oldsize ≥ needed then do
        let (takeprev, takenext) := takes (needed - oldsize) prevsize nextsize
        let (m, node) ←
          if takeprev ≠ 0 then extendPrev g m oldnode prev next prevsize takeprev
          else some (m, oldnode)
        let m ← if takenext ≠ 0 then extendNext g m node next nextsize takenext else some m
        some (m, node + sizeofMmAllocnode)
      else do
        let (m, newmem) ← malloc g m needed
        if newmem ≠ 0 then do
          let m := m.copy newmem oldmem oldsize
          let m ← free g m oldmem
          some (m, newmem)
        else some (m, newmem)

/-! ### Aligned allocation -/

/-- `(rawchunk + mask) & ~mask` -/
def alignedPart (rawchunk alignment : Nat) : Nat :=
  let mask := alignment - 1
  (rawchunk + mask) &&& (2 ^ 32 - 1 - mask)

/-- Free what is in front of the aligned part of a chunk: the memory then, the node of the rest and
its aligned part, which is the second one when there is no room for a free chunk in front of the
first. -/
def freeLeading (g : Globals) (m : Memory) (rawchunk alignedchunk alignment : Nat) :
    Option (Memory × Nat × Nat) :=
  let node := rawchunk - sizeofMmAllocnode
  let next := node + size m node
  if alignedchunk < rawchunk + 8 then none
  else do
    let alignedchunk :=
      if alignedchunk - sizeofMmAllocnode - node < sizeofMmFreenode then alignedchunk + alignment
      else alignedchunk
    let newnode := alignedchunk - sizeofMmAllocnode
    let precedingsize := newnode - node
    let m := setSize m newnode (next - newnode)
    let m := setPreceding m newnode (precedingsize ||| mmAllocBit)
    let m := setSize m node precedingsize
    let m := release m node
    let m := updatePreceding m next (size m newnode)
    let m ← mmAddfreechunk g m node
    some (m, newnode, alignedchunk)

def memalign (g : Globals) (m : Memory) (alignment request : Nat) : Option (Memory × Nat) :=
  if alignment ≤ mmMinChunk then malloc g m request
  else do
    let request := mmAlignUp request
    let allocsize := sizeT (request + 2 * alignment)
    let (m, rawchunk) ← malloc g m allocsize
    if rawchunk = 0 then some (m, 0)
    else do
      let alignedchunk := alignedPart rawchunk alignment
      let (m, node, alignedchunk, allocsize) ←
        if alignedchunk ≠ rawchunk then do
          let (m, newnode, alignedchunk) ← freeLeading g m rawchunk alignedchunk alignment
          some (m, newnode, alignedchunk, size m newnode - sizeofMmAllocnode)
        else some (m, rawchunk - sizeofMmAllocnode, alignedchunk, allocsize)
      let m ←
        if allocsize > request then mmShrinkchunk g m node (request + sizeofMmAllocnode)
        else some m
      some (m, alignedchunk)

/-! ### Statistics -/

structure Mallinfo where
  arena : Nat
  ordblks : Nat
  mxordblk : Nat
  uordblks : Nat
  fordblks : Nat
deriving DecidableEq

/-- The loop of `mallinfo` over the nodes of a region. -/
def countNodes (m : Memory) (heapend : Nat) : Nat → Nat → Mallinfo → Option Mallinfo
  | 0, _, _ => none
  | fuel + 1, node, info =>
      if node < heapend then
        countNodes m heapend fuel (node + size m node)
          (if isFree m node then
            { info with
              ordblks := info.ordblks + 1
              mxordblk := if size m node > info.mxordblk then size m node else info.mxordblk
              fordblks := info.fordblks + size m node }
          else { info with uordblks := info.uordblks + size m node })
      else if node = heapend then
        some { info with uordblks := info.uordblks + sizeofMmAllocnode }
      else none

def mallinfo (g : Globals) (m : Memory) : Option Mallinfo := do
  let info : Mallinfo := { arena := 0, ordblks := 0, mxordblk := 0, uordblks := 0, fordblks := 0 }
  let info ← g.regions.foldlM (fun info region =>
    countNodes m region.2 g.bound region.1 info) info
  if info.uordblks + info.fordblks = g.heapsize then some { info with arena := g.heapsize }
  else none

end Px4Firmware.Mm
