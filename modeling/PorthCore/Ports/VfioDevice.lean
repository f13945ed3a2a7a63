import PorthCore.Verified.Ledger

/-!
# `PorthVFIODevice`: the handles of a physical device

The constructor makes a chain of system calls and throws at the first one that
fails.  C++ does not run the destructor of an object whose constructor has
thrown, and the handles are plain `int`s: what the constructor had opened by
then stays open.

`KernelAnswers` is what the system calls of one construction return; the texts
of the exceptions of `std::stoi` and `std::filesystem` are among them.
-/

namespace PorthCore.Ports.VfioDevice

open PorthCore.Verified.Transition
open PorthCore.Verified.Transition.System
open PorthCore.Verified.Ledger
open PorthCore.Verified.Ledger.Book

/-- A file descriptor, or a mapping of BAR 0. -/
inductive Handle
  | fd (n : Int)
  | mapping (addr size : UInt64)
  deriving DecidableEq, Repr

/-- What a construction is told: descriptors and results of `open` and `ioctl`,
whether the device has an `iommu_group` link and what the link's last component
is as a number, and the address `mmap` has chosen, `none` for `MAP_FAILED`.
`mmap` is not asked for an address and never chooses the null pointer. -/
structure KernelAnswers where
  container : Int
  apiVersion : Int
  groupLinkExists : Bool
  groupLink : Except String Int
  group : Int
  setContainer : Int
  setIommu : Int
  device : Int
  getRegionInfo : Int
  regionSize : UInt64
  mmap : Option UInt64
  mmap_ne_null : mmap ≠ some 0

/-- A device whose constructor has returned: every call has given it its
handle. -/
structure PorthVFIODevice where
  containerFd : Int
  groupFd : Int
  deviceFd : Int
  barPtr : UInt64
  barSize : UInt64
  container_open : ¬containerFd < 0
  group_open : ¬groupFd < 0
  device_open : ¬deviceFd < 0
  bar_ne_null : ¬barPtr = 0
  deriving DecidableEq

/-- `VFIO_API_VERSION`. -/
def vfioApiVersion : Int := 0

/-- `get_iommu_group`. -/
def getIommuGroup (pciAddr : String) (a : KernelAnswers) : Except String Int :=
  if !a.groupLinkExists then
    .error s!"Device {pciAddr} is not in an IOMMU group. Ensure VT-d/AMD-Vi is enabled."
  else a.groupLink

/-! ## The constructor, from its last call to its first -/

/-- Mapping BAR 0. -/
def mapBar (a : KernelAnswers) (hcontainer : ¬a.container < 0) (hgroup : ¬a.group < 0)
    (hdevice : ¬a.device < 0) : List (Entry Handle) × Except String PorthVFIODevice :=
  if a.getRegionInfo < 0 then ([.use (.fd a.device)], .error "Failed to get BAR0 region info.")
  else
    match hmmap : a.mmap with
    | none =>
        ([.use (.fd a.device), .use (.fd a.device)],
          .error "Failed to mmap BAR0 into userspace.")
    | some addr =>
        ([.use (.fd a.device), .use (.fd a.device), .acquire (.mapping addr a.regionSize)],
          .ok
            { containerFd := a.container
              groupFd := a.group
              deviceFd := a.device
              barPtr := addr
              barSize := a.regionSize
              container_open := hcontainer
              group_open := hgroup
              device_open := hdevice
              bar_ne_null := fun h => a.mmap_ne_null (hmmap.trans (congrArg some h)) })

/-- From the open group on. -/
def claimGroup (pciAddr : String) (a : KernelAnswers) (hcontainer : ¬a.container < 0)
    (hgroup : ¬a.group < 0) : List (Entry Handle) × Except String PorthVFIODevice :=
  if a.setContainer < 0 then
    ([.use (.fd a.group), .use (.fd a.container)], .error "Failed to set VFIO container.")
  else if a.setIommu < 0 then
    ([.use (.fd a.group), .use (.fd a.container), .use (.fd a.container)],
      .error "Failed to set IOMMU type to Type1.")
  else if hdevice : a.device < 0 then
    ([.use (.fd a.group), .use (.fd a.container), .use (.fd a.container), .use (.fd a.group)],
      .error s!"Failed to get device FD for {pciAddr}.")
  else
    ([.use (.fd a.group), .use (.fd a.container), .use (.fd a.container), .use (.fd a.group),
        .acquire (.fd a.device)] ++ (mapBar a hcontainer hgroup hdevice).1,
      (mapBar a hcontainer hgroup hdevice).2)

/-- From the open container on. -/
def openGroup (pciAddr : String) (a : KernelAnswers) (hcontainer : ¬a.container < 0) :
    List (Entry Handle) × Except String PorthVFIODevice :=
  if a.apiVersion ≠ vfioApiVersion then
    ([.use (.fd a.container)], .error "Incompatible VFIO API version.")
  else
    match getIommuGroup pciAddr a with
    | .error e => ([.use (.fd a.container)], .error e)
    | .ok groupId =>
        if hgroup : a.group < 0 then
          ([.use (.fd a.container)], .error s!"Failed to open IOMMU group {groupId}.")
        else
          ([.use (.fd a.container), .acquire (.fd a.group)] ++
              (claimGroup pciAddr a hcontainer hgroup).1,
            (claimGroup pciAddr a hcontainer hgroup).2)

/-- `PorthVFIODevice(pci_addr)`. -/
def construct (pciAddr : String) (a : KernelAnswers) :
    List (Entry Handle) × Except String PorthVFIODevice :=
  if hcontainer : a.container < 0 then
    ([], .error "Failed to open /dev/vfio/vfio. Check permissions (sudo required).")
  else
    ([.acquire (.fd a.container)] ++ (openGroup pciAddr a hcontainer).1,
      (openGroup pciAddr a hcontainer).2)

/-- `~PorthVFIODevice`. -/
def destroy (d : PorthVFIODevice) : List (Entry Handle) :=
  (if d.barPtr ≠ 0 then [.release (.mapping d.barPtr d.barSize)] else []) ++
    (if 0 ≤ d.deviceFd then [.release (.fd d.deviceFd)] else []) ++
    (if 0 ≤ d.groupFd then [.release (.fd d.groupFd)] else []) ++
    (if 0 ≤ d.containerFd then [.release (.fd d.containerFd)] else [])

/-- A call of `map_dma`: its arguments and the result of the `ioctl`. -/
structure MapDma where
  vaddr : UInt64
  size : UInt64
  ioctl : Int
  deriving DecidableEq, Repr

/-- `map_dma`: the region gets its own address as the device sees it. -/
def mapDma (d : PorthVFIODevice) (m : MapDma) : List (Entry Handle) × Except String UInt64 :=
  ([.use (.fd d.containerFd)],
    if m.ioctl < 0 then .error "Failed to map DMA region in IOMMU." else .ok m.vaddr)

/-- The class of devices at one PCI address. -/
def vfioClass (pciAddr : String) : Class Handle PorthVFIODevice KernelAnswers MapDma String where
  construct := construct pciAddr
  call := fun m d => ((mapDma d m).1, d)
  destroy := destroy

/-! ## What is owned and what is left open -/

/-- The handles of a device, the last acquired first. -/
def owned (d : PorthVFIODevice) : List Handle :=
  [.mapping d.barPtr d.barSize, .fd d.deviceFd, .fd d.groupFd, .fd d.containerFd]

/-- What a construction that throws leaves open: the descriptors up to the call
that failed. -/
def leftOpen (pciAddr : String) (a : KernelAnswers) : List Handle :=
  if a.container < 0 then []
  else if a.apiVersion ≠ vfioApiVersion ∨ (getIommuGroup pciAddr a).toOption = none ∨ a.group < 0
    then [.fd a.container]
  else if a.setContainer < 0 ∨ a.setIommu < 0 ∨ a.device < 0 then [.fd a.group, .fd a.container]
  else [.fd a.device, .fd a.group, .fd a.container]

/-- What a device owns, and what a constructor that throws leaves open. -/
def ownership (pciAddr : String) : Ownership Handle PorthVFIODevice KernelAnswers MapDma where
  owned := owned
  unwound := leftOpen pciAddr
  dropped := fun _ _ => []

section Triples

variable {pciAddr : String} {a : KernelAnswers}

private theorem mapBar_trades (hcontainer : ¬a.container < 0) (hgroup : ¬a.group < 0)
    (hdevice : ¬a.device < 0) :
    Trades (mapBar a hcontainer hgroup hdevice).1 [.fd a.device, .fd a.group, .fd a.container]
      (outcome owned [.fd a.device, .fd a.group, .fd a.container]
        (mapBar a hcontainer hgroup hdevice).2) := by
  have huse : Handle.fd a.device ∈ [Handle.fd a.device, .fd a.group, .fd a.container] :=
    List.mem_cons_self
  unfold mapBar
  split
  · exact Trades.use huse
  · split
    · exact .cons_use huse (.use huse)
    · exact .cons_use huse (.cons_use huse (.cons_acquire (.nil _)))

private theorem claimGroup_trades (hcontainer : ¬a.container < 0) (hgroup : ¬a.group < 0) :
    Trades (claimGroup pciAddr a hcontainer hgroup).1 [.fd a.group, .fd a.container]
      (outcome owned
        (if a.setContainer < 0 ∨ a.setIommu < 0 ∨ a.device < 0 then
          [.fd a.group, .fd a.container]
        else [.fd a.device, .fd a.group, .fd a.container])
        (claimGroup pciAddr a hcontainer hgroup).2) := by
  have hg : Handle.fd a.group ∈ [Handle.fd a.group, .fd a.container] := List.mem_cons_self
  have hc : Handle.fd a.container ∈ [Handle.fd a.group, .fd a.container] :=
    List.mem_cons_of_mem _ List.mem_cons_self
  unfold claimGroup
  by_cases hsetContainer : a.setContainer < 0
  · rw [if_pos hsetContainer, if_pos (.inl hsetContainer)]
    exact .cons_use hg (.use hc)
  · by_cases hsetIommu : a.setIommu < 0
    · rw [if_neg hsetContainer, if_pos hsetIommu, if_pos (.inr (.inl hsetIommu))]
      exact .cons_use hg (.cons_use hc (.use hc))
    · by_cases hdevice : a.device < 0
      · rw [if_neg hsetContainer, if_neg hsetIommu, dif_pos hdevice,
          if_pos (.inr (.inr hdevice))]
        exact .cons_use hg (.cons_use hc (.cons_use hc (.use hg)))
      · rw [if_neg hsetContainer, if_neg hsetIommu, dif_neg hdevice, if_neg (by simp [*])]
        exact .cons_use hg (.cons_use hc (.cons_use hc (.cons_use hg
          (.cons_acquire (mapBar_trades hcontainer hgroup hdevice)))))

/-- A construction leaves the handles of its device, or what it had opened
before the call that failed. -/
theorem construct_trades :
    Trades (construct pciAddr a).1 []
      (outcome owned (leftOpen pciAddr a) (construct pciAddr a).2) := by
  have hc : Handle.fd a.container ∈ [Handle.fd a.container] := List.mem_cons_self
  unfold construct leftOpen
  by_cases hcontainer : a.container < 0
  · rw [dif_pos hcontainer, if_pos hcontainer]
    exact .nil []
  · rw [dif_neg hcontainer, if_neg hcontainer]
    refine .cons_acquire ?_
    unfold openGroup
    by_cases hversion : a.apiVersion ≠ vfioApiVersion
    · rw [if_pos hversion, if_pos (.inl hversion)]
      exact .use hc
    · rw [if_neg hversion]
      cases hid : getIommuGroup pciAddr a with
      | error e =>
          rw [if_pos (.inr (.inl rfl))]
          exact .use hc
      | ok groupId =>
          dsimp only
          by_cases hgroup : a.group < 0
          · rw [dif_pos hgroup, if_pos (.inr (.inr hgroup))]
            exact .use hc
          · rw [dif_neg hgroup, if_neg (by simp [hversion, hgroup, Except.toOption])]
            exact .cons_use hc (.cons_acquire (claimGroup_trades hcontainer hgroup))

/-- The destructor gives back what the device owns, the last acquired first. -/
theorem destroy_eq (d : PorthVFIODevice) : destroy d = (owned d).map .release := by
  rw [destroy, if_pos d.bar_ne_null, if_pos (Int.not_lt.mp d.device_open),
    if_pos (Int.not_lt.mp d.group_open), if_pos (Int.not_lt.mp d.container_open)]
  rfl

theorem lawful (pciAddr : String) : Lawful (vfioClass pciAddr) (ownership pciAddr) where
  constructed := fun _ => construct_trades
  called := by
    intro m d
    have hcontainer : Handle.fd d.containerFd ∈ owned d := by simp [owned]
    rw [show (ownership pciAddr).dropped m d = [] from rfl, List.append_nil]
    exact .use hcontainer
  destroyed := by
    intro d
    rw [show (vfioClass pciAddr).destroy d = (owned d).map .release from destroy_eq d]
    exact .releases _

end Triples

/-! ## Whole histories -/

/-- **The handles of any history**: however the system calls answer, no
descriptor or mapping is used or released when it is not open.  What is open
after any sequence of constructions, `map_dma` calls and destructions is what
the live devices own and what the constructions that threw had opened before
the call that failed, each handle once. -/
theorem handles_accounted (pciAddr : String)
    {ops : List (ClassOp PorthVFIODevice KernelAnswers MapDma)}
    {s : Process Handle PorthVFIODevice}
    (h : (Process.system (vfioClass pciAddr) (ownership pciAddr)).Run .start ops s) :
    s.book.faults = [] ∧ s.book.held.Nodup ∧
      s.book.held.Perm
        (s.live.flatMap owned ++
          ops.flatMap (Process.lossOf (vfioClass pciAddr) (ownership pciAddr))) :=
  have hbal := (lawful pciAddr).accounts h
  ⟨hbal.faults, hbal.nodup, hbal.held⟩

private theorem mapFailed_ne_null : (none : Option UInt64) ≠ some 0 := nofun

/-- A construction that is told three descriptors and an address. -/
def granted (container group device : Int) (mmap : Option UInt64) (h : mmap ≠ some 0) :
    KernelAnswers :=
  { container := container
    apiVersion := 0
    groupLinkExists := true
    groupLink := .ok 12
    group := group
    setContainer := 0
    setIommu := 0
    device := device
    getRegionInfo := 0
    regionSize := 4096
    mmap := mmap
    mmap_ne_null := h }

/-- A device is claimed and given up, and a second one fails at its `mmap`. -/
def failedClaim : List (ClassOp PorthVFIODevice KernelAnswers MapDma) :=
  [.construct (granted 3 4 5 (some 0x7000) (by decide)),
    .construct (granted 6 7 8 none mapFailed_ne_null),
    .destroy
      { containerFd := 3
        groupFd := 4
        deviceFd := 5
        barPtr := 0x7000
        barSize := 4096
        container_open := by decide
        group_open := by decide
        device_open := by decide
        bar_ne_null := by decide }]

theorem handles_accounted_failed_claim :
    ∃ s : Process Handle PorthVFIODevice, s.live = [] ∧ s.book.held = [.fd 8, .fd 7, .fd 6] ∧
      s.book.faults = [] ∧ s.book.held.Nodup ∧
      s.book.held.Perm
        (s.live.flatMap owned ++ failedClaim.flatMap
          (Process.lossOf (vfioClass "0000:01:00.0") (ownership "0000:01:00.0"))) := by
  obtain ⟨s, hexec, hs⟩ := exec_of_any
    (Process.step (vfioClass "0000:01:00.0") (ownership "0000:01:00.0")) .start failedClaim
    (fun s => s.live = [] ∧ s.book.held = [.fd 8, .fd 7, .fd 6]) (by decide)
  obtain ⟨hlive, hheld⟩ := of_decide_eq_true hs
  exact ⟨s, hlive, hheld, handles_accounted "0000:01:00.0" (run_of_exec hexec)⟩

end PorthCore.Ports.VfioDevice
