import PorthCore.Verified.Ledger

/-!
# What a driver owns: watchdog thread, descriptors, huge page

A `Driver` owns a `PorthShuttle` on the heap and a thread, a shuttle owns a
`PorthHugePage` and the descriptor array of the ring it has placed there, and
the page is one of three kinds of memory, each with a function of its own to
give it back.  Every construction can fail at several points, and what C++
unwinds then are the members that are complete, not the object under
construction.

The page is the one class of the three that keeps a raw pointer while its
constructor can still throw: when `mlock` fails outside CI, the buffer of the
failed construction is left to nobody (`stranded`).
-/

namespace PorthCore.Ports.DriverLifecycle

open PorthCore.Verified.Transition
open PorthCore.Verified.Transition.System
open PorthCore.Verified.Ledger
open PorthCore.Verified.Ledger.Book

/-- Memory, one constructor for each pair of functions that obtains it and
gives it back, and threads. -/
inductive Resource
  | alignedAlloc (addr : UInt64)
  | numaAlloc (addr size : UInt64)
  | mmap (addr size : UInt64)
  | newArray (addr : UInt64)
  | newShuttle (addr : UInt64)
  | thread (id : Nat)
  deriving DecidableEq, Repr

/-- What is thrown. -/
inductive Exception
  | runtimeError (what : String)
  | badAlloc
  | systemError
  deriving DecidableEq, Repr

/-! ## `PorthHugePage` -/

/-- `HP_SIZE`. -/
def hpSize : UInt64 := 2 * 1024 * 1024

/-- `m_total_size`. -/
def totalSize (size : UInt64) : UInt64 := (size + hpSize - 1) / hpSize * hpSize

/-- What the calls of one construction return; an address of 0 is the null
pointer, `none` is `MAP_FAILED`, and `ci` is whether the variable is set.
`mmap` never chooses the null pointer. -/
structure PageAnswers where
  numaAvailable : Int
  numaAllocOnnode : UInt64
  alignedAlloc : UInt64
  mmap : Option UInt64
  mlock : Int
  ci : Bool
  mmap_ne_null : mmap ≠ some 0

/-- A page whose constructor has returned. -/
structure PorthHugePage where
  ptr : UInt64
  totalSize : UInt64
  node : Int
  isNumaManaged : Bool
  isMmaped : Bool
  ptr_ne_null : ptr ≠ 0
  deriving DecidableEq

/-- The buffer before the upgrade. -/
def initialBuffer (ptr total : UInt64) (isNumaManaged : Bool) : Resource :=
  if isNumaManaged then .numaAlloc ptr total else .alignedAlloc ptr

/-- An allocation that returns null has allocated nothing. -/
def acquireUnlessNull (ptr : UInt64) (r : Resource) : List (Entry Resource) :=
  if ptr = 0 then [] else [.acquire r]

/-- `allocate_initial_buffer`: the calls, `m_ptr` and `m_is_numa_managed`. -/
def allocateInitialBuffer (total : UInt64) (a : PageAnswers) :
    List (Entry Resource) × UInt64 × Bool :=
  if a.numaAvailable < 0 then
    (acquireUnlessNull a.alignedAlloc (.alignedAlloc a.alignedAlloc), a.alignedAlloc, false)
  else if a.numaAllocOnnode = 0 then
    (acquireUnlessNull a.alignedAlloc (.alignedAlloc a.alignedAlloc), a.alignedAlloc, false)
  else ([.acquire (.numaAlloc a.numaAllocOnnode total)], a.numaAllocOnnode, true)

/-- `attempt_hugepage_upgrade`. -/
def attemptHugepageUpgrade (total : UInt64) (node : Int) (a : PageAnswers) (ptr : UInt64)
    (isNumaManaged : Bool) (hptr : ptr ≠ 0) :
    List (Entry Resource) × Except Exception PorthHugePage :=
  match hmmap : a.mmap with
  | none =>
      if a.mlock ≠ 0 ∧ a.ci = false then
        ([.use (initialBuffer ptr total isNumaManaged)],
          .error (.runtimeError "Porth-HugePage: mlock failed."))
      else
        ([.use (initialBuffer ptr total isNumaManaged)],
          .ok
            { ptr := ptr
              totalSize := total
              node := node
              isNumaManaged := isNumaManaged
              isMmaped := false
              ptr_ne_null := hptr })
  | some mapped =>
      ([.acquire (.mmap mapped total), .release (initialBuffer ptr total isNumaManaged)],
        .ok
          { ptr := mapped
            totalSize := total
            node := node
            isNumaManaged := isNumaManaged
            isMmaped := true
            ptr_ne_null := fun h => a.mmap_ne_null (hmmap.trans (congrArg some h)) })

namespace PorthHugePage

/-- `PorthHugePage(size, numa_node)`. -/
def construct (size : UInt64) (node : Int) (a : PageAnswers) :
    List (Entry Resource) × Except Exception PorthHugePage :=
  match allocateInitialBuffer (DriverLifecycle.totalSize size) a with
  | (calls, ptr, isNumaManaged) =>
      if hptr : ptr = 0 then
        (calls, .error (.runtimeError "[Porth-IO] Fatal: Total memory allocation failure."))
      else
        (calls ++ (attemptHugepageUpgrade (DriverLifecycle.totalSize size) node a ptr
            isNumaManaged hptr).1,
          (attemptHugepageUpgrade (DriverLifecycle.totalSize size) node a ptr
            isNumaManaged hptr).2)

/-- `~PorthHugePage`. -/
def destroy (p : PorthHugePage) : List (Entry Resource) :=
  if p.ptr ≠ 0 then
    if p.isMmaped then [.release (.mmap p.ptr p.totalSize)]
    else if p.isNumaManaged then [.release (.numaAlloc p.ptr p.totalSize)]
    else [.release (.alignedAlloc p.ptr)]
  else []

/-- The memory of a page, with the function it came from. -/
def memory (p : PorthHugePage) : Resource :=
  if p.isMmaped then .mmap p.ptr p.totalSize else initialBuffer p.ptr p.totalSize p.isNumaManaged

end PorthHugePage

/-- The buffer a construction leaves behind: `mlock` has failed on it outside
CI. -/
def stranded (size : UInt64) (a : PageAnswers) : List Resource :=
  match allocateInitialBuffer (totalSize size) a with
  | (_, ptr, isNumaManaged) =>
      if ptr ≠ 0 ∧ a.mmap = none ∧ a.mlock ≠ 0 ∧ a.ci = false then
        [initialBuffer ptr (totalSize size) isNumaManaged]
      else []

section Page

variable {size total : UInt64} {node : Int} {a : PageAnswers}

theorem acquireUnlessNull_trades (ptr : UInt64) (r : Resource) :
    Trades (acquireUnlessNull ptr r) [] (if ptr = 0 then [] else [r]) := by
  unfold acquireUnlessNull
  split
  · exact .nil []
  · exact .acquire r

private theorem allocateInitialBuffer_trades :
    Trades (allocateInitialBuffer total a).1 []
      (if (allocateInitialBuffer total a).2.1 = 0 then []
      else [initialBuffer (allocateInitialBuffer total a).2.1 total
        (allocateInitialBuffer total a).2.2]) := by
  unfold allocateInitialBuffer
  split
  · exact acquireUnlessNull_trades _ _
  · split
    · exact acquireUnlessNull_trades _ _
    · exact .acquire _

/-- The upgrade trades the buffer for the mapping, keeps it, or throws on
it. -/
theorem attemptHugepageUpgrade_trades {ptr : UInt64} {isNumaManaged : Bool} (hptr : ptr ≠ 0) :
    Trades (attemptHugepageUpgrade total node a ptr isNumaManaged hptr).1
      [initialBuffer ptr total isNumaManaged]
      (outcome (fun p => [PorthHugePage.memory p])
        (if a.mmap = none ∧ a.mlock ≠ 0 ∧ a.ci = false then
          [initialBuffer ptr total isNumaManaged] else [])
        (attemptHugepageUpgrade total node a ptr isNumaManaged hptr).2) := by
  unfold attemptHugepageUpgrade
  split
  · next hmmap =>
      split
      · next hlock =>
          simp only [outcome]
          rw [if_pos ⟨hmmap, hlock⟩]
          exact .use List.mem_cons_self
      · exact .use List.mem_cons_self
  · refine .perm (.append (.frame (.acquire _) _) (.perm (.frame (.release _) [_])
      (List.Perm.swap _ _ _) (.refl _))) (.refl _) (.refl _)

/-- A construction leaves the memory of its page, or the buffer it throws
on. -/
theorem page_constructed :
    Trades (PorthHugePage.construct size node a).1 []
      (outcome (fun p => [PorthHugePage.memory p]) (stranded size a)
        (PorthHugePage.construct size node a).2) := by
  have halloc := @allocateInitialBuffer_trades (totalSize size) a
  unfold PorthHugePage.construct stranded
  rcases hinitial : allocateInitialBuffer (totalSize size) a with ⟨calls, ptr, isNumaManaged⟩
  rw [hinitial] at halloc
  by_cases hptr : ptr = 0
  · simpa [hptr, outcome] using halloc
  · simp only [hptr, if_false] at halloc
    simp only [hptr, dite_false, ne_eq, not_false_eq_true, true_and]
    exact halloc.append (attemptHugepageUpgrade_trades hptr)

/-- A construction that returns leaves nothing behind. -/
theorem page_stranded_of_ok {p : PorthHugePage}
    (h : (PorthHugePage.construct size node a).2 = .ok p) : stranded size a = [] := by
  unfold PorthHugePage.construct at h
  unfold stranded
  rcases hinitial : allocateInitialBuffer (totalSize size) a with ⟨calls, ptr, isNumaManaged⟩
  rw [hinitial] at h
  refine if_neg ?_
  rintro ⟨hptr, hmmap, hlock⟩
  simp only [hptr, dite_false] at h
  unfold attemptHugepageUpgrade at h
  split at h
  · rw [if_pos hlock] at h
    cases h
  · next mapped hsome =>
      rw [hmmap] at hsome
      cases hsome

theorem page_destroyed (p : PorthHugePage) : Trades p.destroy [p.memory] [] := by
  unfold PorthHugePage.destroy PorthHugePage.memory initialBuffer
  rw [if_pos p.ptr_ne_null]
  split
  · exact .release _
  · split
    · exact .release _
    · exact .release _

end Page

/-! ## `PorthShuttle` -/

/-- `SHUTTLE_PAGE_SIZE`. -/
def shuttlePageSize : UInt64 := 2 * 1024 * 1024

/-- A shuttle whose constructor has returned: its page, in which the ring
object lies, and the descriptor array of the ring. -/
structure PorthShuttle where
  memory : PorthHugePage
  buffer : UInt64
  deriving DecidableEq

namespace PorthShuttle

/-- `PorthShuttle(numa_node)`; `buffer` is what `new PorthDescriptor[SIZE]`
returns, `none` when it throws. -/
def construct (node : Int) (a : PageAnswers) (buffer : Option UInt64) :
    List (Entry Resource) × Except Exception PorthShuttle :=
  match PorthHugePage.construct shuttlePageSize node a with
  | (calls, .error e) => (calls, .error e)
  | (calls, .ok page) =>
      match buffer with
      | none => (calls ++ (.use page.memory :: page.destroy), .error .badAlloc)
      | some array =>
          (calls ++ [.use page.memory, .acquire (.newArray array)],
            .ok { memory := page, buffer := array })

/-- `~PorthShuttle`: the ring's destructor in the page, then the page. -/
def destroy (sh : PorthShuttle) : List (Entry Resource) :=
  [.use sh.memory.memory, .release (.newArray sh.buffer)] ++ sh.memory.destroy

/-- What a shuttle owns. -/
def owned (sh : PorthShuttle) : List Resource := [.newArray sh.buffer, sh.memory.memory]

theorem constructed {node : Int} {a : PageAnswers} {buffer : Option UInt64} :
    Trades (construct node a buffer).1 []
      (outcome owned (stranded shuttlePageSize a) (construct node a buffer).2) := by
  have hpage := @page_constructed shuttlePageSize node a
  unfold construct
  rcases hresult : PorthHugePage.construct shuttlePageSize node a with ⟨calls, e | page⟩
  · rw [hresult] at hpage
    exact hpage
  · rw [hresult] at hpage
    cases buffer with
    | none =>
        dsimp only [outcome]
        rw [page_stranded_of_ok (congrArg Prod.snd hresult)]
        exact hpage.append (.cons_use List.mem_cons_self (page_destroyed page))
    | some array => exact hpage.append (.cons_use List.mem_cons_self (.frame (.acquire _) _))

private theorem stranded_of_ok {node : Int} {a : PageAnswers} {buffer : Option UInt64}
    {shuttle : PorthShuttle} (h : (construct node a buffer).2 = .ok shuttle) :
    stranded shuttlePageSize a = [] := by
  unfold construct at h
  rcases hresult : PorthHugePage.construct shuttlePageSize node a with ⟨calls, e | page⟩
  · rw [hresult] at h
    cases h
  · exact page_stranded_of_ok (congrArg Prod.snd hresult)

theorem destroyed (sh : PorthShuttle) : Trades sh.destroy sh.owned [] :=
  .cons_use (List.mem_cons_of_mem _ List.mem_cons_self)
    (.cons_release (page_destroyed sh.memory))

end PorthShuttle

/-! ## `Driver` -/

/-- What one construction of a driver is told: whether `hardware_regs` is null,
and the results of `operator new`, of the page's calls, of
`new PorthDescriptor[SIZE]` and of the thread's creation. -/
structure DriverAnswers where
  regsNull : Bool
  newShuttle : Option UInt64
  page : PageAnswers
  buffer : Option UInt64
  thread : Option Nat

/-- A driver whose constructor has returned. -/
structure Driver where
  shuttleAddr : UInt64
  shuttle : PorthShuttle
  thread : Nat
  deriving DecidableEq

/-- A call of `transmit` or `receive`; the descriptor array is touched unless
the ring is full or empty. -/
structure Transfer where
  moved : Bool
  deriving DecidableEq, Repr

namespace Driver

/-- `Driver(hardware_regs)`.  A shuttle whose construction throws is returned
to the heap by `new`; once it is a member, a later throw destroys it. -/
def construct (a : DriverAnswers) : List (Entry Resource) × Except Exception Driver :=
  if a.regsNull then
    ([], .error (.runtimeError "Porth-Driver: Hardware registers pointer is null."))
  else
    match a.newShuttle with
    | none => ([], .error .badAlloc)
    | some addr =>
        match PorthShuttle.construct 0 a.page a.buffer with
        | (calls, .error e) =>
            (.acquire (.newShuttle addr) :: (calls ++ [.release (.newShuttle addr)]), .error e)
        | (calls, .ok shuttle) =>
            match a.thread with
            | none =>
                (.acquire (.newShuttle addr) :: (calls ++ (.use (.newShuttle addr) ::
                    (shuttle.destroy ++ [.release (.newShuttle addr)]))),
                  .error .systemError)
            | some id =>
                (.acquire (.newShuttle addr) ::
                    (calls ++ [.use (.newShuttle addr), .acquire (.thread id)]),
                  .ok { shuttleAddr := addr, shuttle := shuttle, thread := id })

/-- `~Driver` joins the watchdog, then the members go. -/
def destroy (d : Driver) : List (Entry Resource) :=
  .release (.thread d.thread) :: (d.shuttle.destroy ++ [.release (.newShuttle d.shuttleAddr)])

/-- The memory a transfer goes through: the shuttle, the indices in the page
and the descriptor array. -/
def transfer (t : Transfer) (d : Driver) : List (Entry Resource) :=
  [.use (.newShuttle d.shuttleAddr), .use d.shuttle.memory.memory] ++
    (if t.moved then [.use (.newArray d.shuttle.buffer)] else [])

/-- What a driver owns: its thread, its shuttle, and the memory the shuttle lies
in. -/
def owned (d : Driver) : List Resource :=
  .thread d.thread :: (d.shuttle.owned ++ [.newShuttle d.shuttleAddr])

end Driver

/-- The class of drivers. -/
def driverClass : Class Resource Driver DriverAnswers Transfer Exception where
  construct := Driver.construct
  call := fun t d => (d.transfer t, d)
  destroy := Driver.destroy

/-- What a driver's construction leaves behind is what its page does. -/
def unlocked (a : DriverAnswers) : List Resource :=
  if a.regsNull ∨ a.newShuttle = none then [] else stranded shuttlePageSize a.page

/-- What its objects own, and what a constructor that throws leaves behind. -/
def ownership : Ownership Resource Driver DriverAnswers Transfer where
  owned := Driver.owned
  unwound := unlocked
  dropped := fun _ _ => []

namespace Driver

theorem constructed (a : DriverAnswers) :
    Trades (construct a).1 [] (outcome owned (unlocked a) (construct a).2) := by
  have hshuttle := @PorthShuttle.constructed 0 a.page a.buffer
  unfold construct unlocked
  by_cases hnull : a.regsNull = true
  · simpa [hnull, outcome] using Trades.nil []
  · cases hnew : a.newShuttle with
    | none => simpa [hnull, outcome] using Trades.nil []
    | some addr =>
        rcases hresult : PorthShuttle.construct 0 a.page a.buffer with ⟨calls, e | shuttle⟩
        · rw [hresult] at hshuttle
          simp only [hnull, reduceCtorEq, or_self, if_false, Bool.false_eq_true]
          refine .cons_acquire ((hshuttle.frame [.newShuttle addr]).append ?_)
          exact (Trades.frame (.release _) _).perm (List.perm_append_singleton _ _) (.refl _)
        · rw [hresult] at hshuttle
          have hnone := PorthShuttle.stranded_of_ok (congrArg Prod.snd hresult)
          have hboth := hshuttle.frame [.newShuttle addr]
          have hobject : Resource.newShuttle addr ∈ shuttle.owned ++ [.newShuttle addr] := by simp
          simp only [hnull, reduceCtorEq, or_self, if_false, Bool.false_eq_true, hnone]
          cases a.thread with
          | none =>
              refine .cons_acquire (hboth.append (.cons_use hobject ?_))
              exact (Trades.frame shuttle.destroyed _).append (.release _)
          | some id =>
              exact .cons_acquire (hboth.append (.cons_use hobject (.frame (.acquire _) _)))

theorem called (t : Transfer) (d : Driver) : Trades (d.transfer t) d.owned d.owned := by
  have hobject : Resource.newShuttle d.shuttleAddr ∈ d.owned := by simp [owned]
  have hpage : d.shuttle.memory.memory ∈ d.owned := by simp [owned, PorthShuttle.owned]
  have harray : Resource.newArray d.shuttle.buffer ∈ d.owned := by
    simp [owned, PorthShuttle.owned]
  refine .cons_use hobject (.cons_use hpage ?_)
  split
  · exact .use harray
  · exact .nil _

theorem destroyed (d : Driver) : Trades d.destroy d.owned [] :=
  .cons_release ((Trades.frame d.shuttle.destroyed _).append (.release _))

end Driver

theorem lawful : Lawful driverClass ownership where
  constructed := Driver.constructed
  called := by
    intro t d
    rw [show ownership.dropped t d = [] from rfl, List.append_nil]
    exact Driver.called t d
  destroyed := Driver.destroyed

/-! ## Whole histories -/

/-- **What any history of drivers holds**: whichever of the allocations, locks
and thread creations fail, nothing is given back by the wrong function, twice,
or while still in use, and no transfer reaches memory that is gone.  What is
open at any time is what the live drivers own and one buffer for each
construction whose page could be neither mapped nor locked outside CI. -/
theorem driver_resources_accounted {ops : List (ClassOp Driver DriverAnswers Transfer)}
    {s : Process Resource Driver}
    (h : (Process.system driverClass ownership).Run .start ops s) :
    s.book.faults = [] ∧ s.book.held.Nodup ∧
      s.book.held.Perm
        (s.live.flatMap Driver.owned ++ ops.flatMap (Process.lossOf driverClass ownership)) :=
  have hbal := lawful.accounts h
  ⟨hbal.faults, hbal.nodup, hbal.held⟩

/-- A page on node 0, without huge pages. -/
def smallPage (addr : UInt64) (mlock : Int) : PageAnswers :=
  { numaAvailable := 0
    numaAllocOnnode := addr
    alignedAlloc := 0
    mmap := none
    mlock := mlock
    ci := false
    mmap_ne_null := by decide }

/-- What a construction is told that finds no huge page. -/
def asked (shuttle page : UInt64) (mlock : Int) (thread : Option Nat) : DriverAnswers :=
  { regsNull := false
    newShuttle := some shuttle
    page := smallPage page mlock
    buffer := some (shuttle + 0x100)
    thread := thread }

/-- The driver that `asked 0x1000 0x200000 0 (some 7)` makes. -/
def firstDriver : Driver :=
  { shuttleAddr := 0x1000
    shuttle :=
      { memory :=
          { ptr := 0x200000
            totalSize := 0x200000
            node := 0
            isNumaManaged := true
            isMmaped := false
            ptr_ne_null := by decide }
        buffer := 0x1100 }
    thread := 7 }

/-- A driver lives while one construction is refused its lock and another its
thread. -/
def refusals : List (ClassOp Driver DriverAnswers Transfer) :=
  [.construct (asked 0x1000 0x200000 0 (some 7)), .call ⟨true⟩ firstDriver,
    .construct (asked 0x2000 0x400000 (-1) (some 8)),
    .construct (asked 0x2000 0x600000 0 none), .destroy firstDriver]

theorem driver_resources_accounted_refusals :
    ∃ s : Process Resource Driver,
      s.live = [] ∧ s.book.held = [.numaAlloc 0x400000 0x200000] ∧
        s.book.faults = [] ∧ s.book.held.Nodup ∧
        s.book.held.Perm
          (s.live.flatMap Driver.owned ++
            refusals.flatMap (Process.lossOf driverClass ownership)) := by
  obtain ⟨s, hexec, hs⟩ := exec_of_any (Process.step driverClass ownership) .start refusals
    (fun s => s.live = [] ∧ s.book.held = [.numaAlloc 0x400000 0x200000]) (by decide)
  obtain ⟨hlive, hheld⟩ := of_decide_eq_true hs
  exact ⟨s, hlive, hheld, driver_resources_accounted (run_of_exec hexec)⟩

end PorthCore.Ports.DriverLifecycle
