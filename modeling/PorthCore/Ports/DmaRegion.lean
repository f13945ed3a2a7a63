import PorthCore.Ports.SizeGuard

/-!
# Where the descriptors of a shuttle live

`PorthShuttle` places the ring object at the base of its page and calls the
constructor of `PorthRingBuffer` without an argument.  Its default is a null
`external_buffer`, for which the constructor allocates the descriptors with
`new[]`.  What lies in the page is the control block alone; every slot that a
push or a pop touches is in a heap block, outside the region that is
registered and mapped for the device (`slot_outside`).

Addresses are numbers.  The allocator is a parameter: it hands out a block
that is disjoint from the live mapping.
-/

namespace PorthCore.Ports.DmaRegion

open PorthCore.Verified.Transition
open PorthCore.Verified.BoundedFifo
open PorthCore.Ports.RingBuffer
open PorthCore.Ports.RingFifo
open PorthCore.Ports.SizeGuard

/-- A block of memory. -/
structure Block where
  addr : Nat
  bytes : Nat
  deriving DecidableEq, Repr

namespace Block

/-- `b` lies inside `r`. -/
def Within (b r : Block) : Prop := r.addr ≤ b.addr ∧ b.addr + b.bytes ≤ r.addr + r.bytes

/-- The blocks have no byte in common. -/
def Disjoint (b r : Block) : Prop :=
  b.addr + b.bytes ≤ r.addr ∨ r.addr + r.bytes ≤ b.addr

instance (b r : Block) : Decidable (b.Within r) :=
  inferInstanceAs (Decidable (r.addr ≤ b.addr ∧ b.addr + b.bytes ≤ r.addr + r.bytes))

instance (b r : Block) : Decidable (b.Disjoint r) :=
  inferInstanceAs (Decidable (b.addr + b.bytes ≤ r.addr ∨ r.addr + r.bytes ≤ b.addr))

private theorem Disjoint.of_within {b r r' : Block} (h : r.Disjoint r') (hb : b.Within r) :
    b.Disjoint r' := by
  unfold Disjoint Within at *
  omega

private theorem Disjoint.not_within {b r : Block} (h : b.Disjoint r) (hb : 0 < b.bytes) :
    ¬b.Within r := by
  unfold Disjoint Within at *
  omega

end Block

/-- `sizeof(PorthDescriptor)`. -/
def descriptorBytes : Nat := 16

/-- `HP_SIZE`. -/
def hpSize : Nat := 2 * 1024 * 1024

/-- `SHUTTLE_PAGE_SIZE`. -/
def shuttlePageSize : Nat := 2 * 1024 * 1024

/-- `m_total_size` of a `PorthHugePage` for `size` bytes. -/
def totalSize (size : Nat) : Nat := (size + hpSize - 1) / hpSize * hpSize

/-- A ring object: where it lies, and where `m_buffer` points. -/
structure PlacedRing where
  object : Block
  buffer : Nat

/-- The constructor of `PorthRingBuffer` on an object that lies at `object`;
`allocated` is what `new PorthDescriptor[SIZE]` returns if it is called. -/
def PlacedRing.make (object : Block) (externalBuffer : Option Nat) (allocated : Nat) : PlacedRing :=
  { object := object
    buffer := externalBuffer.getD allocated }

/-- A constructed shuttle: its page and its ring. -/
structure MappedShuttle where
  memory : Block
  ring : PlacedRing

/-- The constructor of `PorthShuttle` on a page that is mapped at `base`, for
a ring object of `ringBytes`. -/
def MappedShuttle.make (base ringBytes allocated : Nat) : MappedShuttle :=
  { memory :=
      { addr := base
        bytes := totalSize shuttlePageSize }
    ring := .make { addr := base, bytes := ringBytes } none allocated }

namespace MappedShuttle

/-- `get_raw_memory_ptr` and `get_raw_memory_size`. -/
def rawMemory (shuttle : MappedShuttle) : Block := shuttle.memory

/-- The descriptor at an index. -/
def slot (shuttle : MappedShuttle) (i : UInt32) : Block :=
  { addr := shuttle.ring.buffer + descriptorBytes * i.toNat
    bytes := descriptorBytes }

/-- Some run of pushes and pops on a fresh ring uses slot `i`. -/
def Touches (g : RingGeometry) (i : UInt32) : Prop :=
  ∃ slots ops, i ∈ slotsUsed g.size (.fresh slots) ops

/-- Every descriptor a push or pop can touch lies in the region reported for
the device, and beside the control block. -/
def InRegion (g : RingGeometry) (shuttle : MappedShuttle) : Prop :=
  ∀ i, Touches g i →
    (shuttle.slot i).Within shuttle.rawMemory ∧ (shuttle.slot i).Disjoint shuttle.ring.object

/-- The block `new PorthDescriptor[SIZE]` hands out. -/
def heapBlock (g : RingGeometry) (allocated : Nat) : Block :=
  { addr := allocated
    bytes := descriptorBytes * g.size.toNat }

section

variable {g : RingGeometry} {base ringBytes allocated : Nat} {i : UInt32}

/-- The masks keep every slot inside the block the ring has allocated. -/
theorem slot_in_heapBlock (h : Touches g i) :
    ((make base ringBytes allocated).slot i).Within (heapBlock g allocated) := by
  obtain ⟨slots, ops, hslot⟩ := h
  have hlt := slotsUsed_lt ⟨0, represents_fresh g slots⟩ ops i hslot
  have hperiod : g.period ≤ g.size.toNat := by
    rw [g.size_toNat]
    exact Nat.pow_le_pow_right (by decide) (Nat.min_le_left _ _)
  constructor
  · show allocated ≤ allocated + 16 * i.toNat
    omega
  · show allocated + 16 * i.toNat + 16 ≤ allocated + 16 * g.size.toNat
    omega

/-- So every slot is outside the region. -/
theorem slot_outside
    (hheap : (heapBlock g allocated).Disjoint (make base ringBytes allocated).rawMemory)
    (h : Touches g i) :
    ((make base ringBytes allocated).slot i).Disjoint (make base ringBytes allocated).rawMemory :=
  hheap.of_within (slot_in_heapBlock h)

/-- The first push writes slot 0. -/
theorem touches_zero (g : RingGeometry) : Touches g 0 := by
  refine ⟨fun _ => default, [.push default], ?_⟩
  have hpush := push_room (represents_fresh g fun _ => default)
    (show 0 + 1 < g.period from g.two_le_period) default
  rw [slotsUsed, slotUsed, if_pos hpush.1]
  exact List.mem_cons_self

/-- **No descriptor lives in the DMA region.**  Whatever the capacity, the
page and the block the allocator hands out, the descriptors of a shuttle are
not where the device has been told they are. -/
theorem not_inRegion (g : RingGeometry) (base ringBytes allocated : Nat)
    (hheap : (heapBlock g allocated).Disjoint (make base ringBytes allocated).rawMemory) :
    ¬InRegion g (make base ringBytes allocated) := by
  intro h
  have hinside := (h 0 (touches_zero g)).1
  have houtside := slot_outside hheap (touches_zero g)
  exact houtside.not_within (by decide : 0 < descriptorBytes) hinside

end

/-- A page at 2 MiB, a ring object of 256 bytes and 1024 descriptors at
256 MiB. -/
theorem default_not_inRegion :
    (heapBlock .default1024 0x10000000).Disjoint (make 0x200000 256 0x10000000).rawMemory ∧
      ¬InRegion .default1024 (make 0x200000 256 0x10000000) :=
  ⟨by decide, not_inRegion .default1024 0x200000 256 0x10000000 (by decide)⟩

/-- Two slots instead of 1024, at 16 MiB: slot 0 is at 16 MiB too. -/
theorem smallest_not_inRegion :
    ¬InRegion .smallest (make 0x200000 256 0x1000000) := by
  intro h
  have hinside := (h 0 (touches_zero .smallest)).1
  revert hinside
  decide

end MappedShuttle

end PorthCore.Ports.DmaRegion
