import PorthCore.Verified.Transition
import PorthCore.Ports.SimDevice

/-!
# The register handshake of the mock chip

`mock_handshake.cpp` runs a driver and a mock chip on one register file.  Both
write `control`: the driver its commands START and RESET, the chip IDLE when it
has served a START.  The chip announces READY before it writes that IDLE, and
READY is all the driver waits for before it writes RESET.

A step is one access, and an interleaving is the list of the accesses.
`kept_iff` says in which of them the driver's RESET survives; `Hung.run` is
what becomes of the others.  The delays and the console output have no effect
on the registers and are left out.
-/

namespace PorthCore.Ports.MockHandshake

open PorthCore.Verified.Transition
open PorthCore.Verified.Transition.System
open PorthCore.Ports.SimDevice

/-! ## The constants of `cardiff_chip` -/

/-- `CTRL_IDLE`. -/
def ctrlIdle : UInt32 := 0x0

/-- `CTRL_START`. -/
def ctrlStart : UInt32 := 0x1

/-- `CTRL_RESET`. -/
def ctrlReset : UInt32 := 0x9

/-- `STATUS_BUSY`. -/
def statusBusy : UInt32 := 0x1

/-- `STATUS_READY`. -/
def statusReady : UInt32 := 0x2

/-! ## The two threads -/

/-- What `main` does next. -/
inductive DriverPc
  | writeStart
  | pollStatus
  | readCounter
  | writeReset
  | join
  | joined
  deriving DecidableEq, Repr

/-- What `run_mock_hardware` does next.  It has `failed` when it could not
attach to the segment. -/
inductive ChipPc
  | attach
  | poll
  | writeBusy
  | readCounter
  | writeCounter
  | writeReady
  | writeIdle
  | stopped
  | failed
  deriving DecidableEq, Repr

/-- The registers, the two threads, and their locals `result` and
`current_count`. -/
structure DriverChip where
  dev : PorthDeviceLayout
  driver : DriverPc
  chip : ChipPc
  result : Option UInt64
  currentCount : UInt64
  deriving DecidableEq, Repr

/-- A step: the access a thread makes, or the exception that ends the chip's
thread where it would attach. -/
inductive Access
  | driver (pc : DriverPc)
  | chip (pc : ChipPc)
  | attachThrows
  deriving DecidableEq, Repr

namespace DriverChip

/-- `main` after `std::thread` was constructed; the segment was just created
and is filled with zeros. -/
def start : DriverChip :=
  { dev :=
      { control := 0
        status := 0
        dataPtr := 0
        counter := 0
        laserTemp := 0
        ganVoltage := 0
        rfSnr := 0
        safetyTrip := 0 }
    driver := .writeStart
    chip := .attach
    result := none
    currentCount := 0 }

/-- A store to `control`. -/
def writeControl (s : DriverChip) (value : UInt32) : DriverChip :=
  { s with dev := { s.dev with control := value } }

/-- A store to `status`. -/
def writeStatus (s : DriverChip) (value : UInt32) : DriverChip :=
  { s with dev := { s.dev with status := value } }

/-- A store to `counter`. -/
def writeCounter (s : DriverChip) (value : UInt64) : DriverChip :=
  { s with dev := { s.dev with counter := value } }

/-- The driver's access from `pc`. -/
def driverMoved (s : DriverChip) : DriverPc → DriverChip
  | .writeStart => { s.writeControl ctrlStart with driver := .pollStatus }
  | .pollStatus =>
      { s with driver := if s.dev.status ≠ statusReady then .pollStatus else .readCounter }
  | .readCounter => { s with driver := .writeReset, result := some s.dev.counter }
  | .writeReset => { s.writeControl ctrlReset with driver := .join }
  | .join | .joined => { s with driver := .joined }

/-- The branch the chip's loop takes on the command it has loaded. -/
def dispatch (ctrl : UInt32) : ChipPc :=
  if ctrl = ctrlStart then .writeBusy
  else if ctrl = ctrlReset then .stopped
  else .poll

/-- The chip's access from `pc`. -/
def chipMoved (s : DriverChip) : ChipPc → DriverChip
  | .attach => { s with chip := .poll }
  | .poll => { s with chip := dispatch s.dev.control }
  | .writeBusy => { s.writeStatus statusBusy with chip := .readCounter }
  | .readCounter => { s with chip := .writeCounter, currentCount := s.dev.counter }
  | .writeCounter => { s.writeCounter (s.currentCount + 1) with chip := .writeReady }
  | .writeReady => { s.writeStatus statusReady with chip := .writeIdle }
  | .writeIdle => { s.writeControl ctrlIdle with chip := .poll }
  | .stopped | .failed => s

/-- A thread makes the access it has come to.  `join` returns when the chip's
thread has ended, and a thread that has ended makes none. -/
def Enabled (s : DriverChip) : Access → Prop
  | .driver pc =>
      s.driver = pc ∧ pc ≠ .joined ∧ (pc = .join → s.chip = .stopped ∨ s.chip = .failed)
  | .chip pc => s.chip = pc ∧ pc ≠ .stopped ∧ pc ≠ .failed
  | .attachThrows => s.chip = .attach

instance (s : DriverChip) : DecidablePred s.Enabled := fun a =>
  match a with
  | .driver _ | .chip _ => inferInstanceAs (Decidable (_ ∧ _))
  | .attachThrows => inferInstanceAs (Decidable (_ = _))

/-- What an access does. -/
def moved (s : DriverChip) : Access → DriverChip
  | .driver pc => s.driverMoved pc
  | .chip pc => s.chipMoved pc
  | .attachThrows => { s with chip := .failed }

/-- The access, where the thread is at it. -/
def step (s : DriverChip) (a : Access) : Option DriverChip :=
  if s.Enabled a then some (s.moved a) else none

/-- All interleavings of the two threads. -/
def system : System DriverChip Access := ofStep (· = start) step

/-- The driver has written RESET. -/
def ResetWritten (s : DriverChip) : Prop := s.driver = .join ∨ s.driver = .joined

/-- RESET was read by the chip or is still there to be read, and the driver
does not wait for a chip that polls for something else. -/
structure Kept (s : DriverChip) : Prop where
  held : s.ResetWritten → s.chip = .stopped ∨ s.dev.control = ctrlReset
  answered : ¬(s.driver = .join ∧ s.chip = .poll ∧ s.dev.control ≠ ctrlReset)

variable {s t : DriverChip} {a : Access}

/-- What a step can do. -/
theorem step_eq_some (h : s.step a = some t) : s.Enabled a ∧ t = s.moved a := of_guard h

theorem not_resetWritten (hjoin : s.driver ≠ .join) (hjoined : s.driver ≠ .joined) :
    ¬s.ResetWritten := not_or.mpr ⟨hjoin, hjoined⟩

/-! ## Up to the driver's RESET -/

/-- Until the driver writes RESET: before its START the chip is not yet at work;
where READY is announced the chip has at most its IDLE left to write, and has
no command before it afterwards; and the driver goes on after READY only. -/
structure Serving (s : DriverChip) : Prop where
  unwritten : ¬s.ResetWritten
  quiet : s.driver = .writeStart →
    (s.chip = .attach ∨ s.chip = .poll ∨ s.chip = .failed) ∧
      s.dev.control = ctrlIdle ∧ s.dev.status ≠ statusReady
  announced : s.dev.status = statusReady →
    s.chip = .writeIdle ∨ s.chip = .poll ∧ s.dev.control = ctrlIdle
  sampled : s.driver = .readCounter ∨ s.driver = .writeReset → s.dev.status = statusReady

theorem Serving.start : Serving start where
  unwritten := not_resetWritten nofun nofun
  quiet := fun _ => ⟨.inl rfl, rfl, by decide⟩
  announced := fun h => absurd h (by decide)
  sampled := by
    rintro (h | h)
    · cases h
    · cases h

theorem Serving.kept (h : Serving s) : Kept s where
  held := fun hwritten => absurd hwritten h.unwritten
  answered := fun ⟨hjoin, _⟩ => h.unwritten (.inl hjoin)

/-- A chip that has more to do than write IDLE has not announced READY. -/
theorem Serving.not_announced (h : Serving s) (hidle : s.chip ≠ .writeIdle)
    (hpoll : s.chip ≠ .poll) : s.dev.status ≠ statusReady := by
  intro hready
  rcases h.announced hready with hat | ⟨hat, -⟩
  · exact hidle hat
  · exact hpoll hat

/-- Between its START and the chip's READY the driver polls. -/
theorem Serving.driver_eq (h : Serving s) (hstart : s.driver ≠ .writeStart)
    (hstatus : s.dev.status ≠ statusReady) : s.driver = .pollStatus := by
  cases hdriver : s.driver with
  | writeStart => exact absurd hdriver hstart
  | pollStatus => rfl
  | readCounter => exact absurd (h.sampled (.inl hdriver)) hstatus
  | writeReset => exact absurd (h.sampled (.inr hdriver)) hstatus
  | join => exact absurd (.inl hdriver) h.unwritten
  | joined => exact absurd (.inr hdriver) h.unwritten

/-- A chip at work has been started. -/
theorem Serving.not_writeStart (h : Serving s) (hattach : s.chip ≠ .attach)
    (hpoll : s.chip ≠ .poll) (hfailed : s.chip ≠ .failed) : s.driver ≠ .writeStart := by
  intro hat
  rcases (h.quiet hat).1 with hchip | hchip | hchip
  · exact hattach hchip
  · exact hpoll hchip
  · exact hfailed hchip

theorem Serving.of_pollStatus (hdriver : s.driver = .pollStatus)
    (hannounced : s.dev.status = statusReady →
      s.chip = .writeIdle ∨ s.chip = .poll ∧ s.dev.control = ctrlIdle) : Serving s where
  unwritten := by
    apply not_resetWritten
    · rw [hdriver]
      decide
    · rw [hdriver]
      decide
  quiet := fun h => by cases hdriver.symm.trans h
  announced := hannounced
  sampled := by
    rintro (h | h)
    · cases hdriver.symm.trans h
    · cases hdriver.symm.trans h

theorem Serving.driver {pc : DriverPc} (h : Serving s) (henabled : s.Enabled (.driver pc))
    (hpc : pc ≠ .writeReset) : Serving (s.driverMoved pc) := by
  obtain ⟨hat, hjoined, -⟩ := henabled
  cases pc with
  | writeStart =>
      obtain ⟨-, -, hstatus⟩ := h.quiet hat
      exact .of_pollStatus rfl fun hready => absurd hready hstatus
  | pollStatus =>
      by_cases hready : s.dev.status = statusReady
      · have hmoved : s.driverMoved .pollStatus = { s with driver := .readCounter } := by
          rw [driverMoved, if_neg (not_not_intro hready)]
        rw [hmoved]
        exact
          { unwritten := not_resetWritten nofun nofun
            quiet := nofun
            announced := h.announced
            sampled := fun _ => hready }
      · have hmoved : s.driverMoved .pollStatus = s := by
          rw [driverMoved, if_pos hready, ← hat]
        rw [hmoved]
        exact h
  | readCounter =>
      exact
        { unwritten := not_resetWritten nofun nofun
          quiet := nofun
          announced := h.announced
          sampled := fun _ => h.sampled (.inl hat) }
  | writeReset => exact absurd rfl hpc
  | join => exact absurd (.inl hat) h.unwritten
  | joined => exact absurd rfl hjoined

/-- A chip that reads IDLE polls again. -/
theorem chipMoved_poll (hat : s.chip = .poll) (hcontrol : s.dev.control = ctrlIdle) :
    s.chipMoved .poll = s := by
  rw [chipMoved, hcontrol, show dispatch ctrlIdle = s.chip from hat.symm]

/-- The chip takes a command only before READY. -/
theorem Serving.poll (h : Serving s) (hat : s.chip = .poll) :
    Serving (s.chipMoved .poll) := by
  by_cases hcontrol : s.dev.control = ctrlIdle
  · rw [chipMoved_poll hat hcontrol]
    exact h
  · have hstatus : s.dev.status ≠ statusReady := by
      intro hready
      rcases h.announced hready with hidle | ⟨-, hidle⟩
      · cases hat.symm.trans hidle
      · exact hcontrol hidle
    have hdriver : s.driver = .pollStatus := by
      refine h.driver_eq ?_ hstatus
      intro hd
      exact hcontrol (h.quiet hd).2.1
    exact .of_pollStatus hdriver fun hready => absurd hready hstatus

theorem Serving.chip {pc : ChipPc} (h : Serving s) (henabled : s.Enabled (.chip pc)) :
    Serving (s.chipMoved pc) := by
  obtain ⟨hat, hstopped, hfailed⟩ := henabled
  -- away from the loop's head the driver polls, and READY is not up before IDLE is due
  have hwork : pc ≠ .attach → pc ≠ .poll → s.driver ≠ .writeStart := fun hattach hpoll =>
    h.not_writeStart (hat ▸ hattach) (hat ▸ hpoll) (hat ▸ hfailed)
  have hstatus : pc ≠ .writeIdle → pc ≠ .poll → s.dev.status ≠ statusReady := fun hidle hpoll =>
    h.not_announced (hat ▸ hidle) (hat ▸ hpoll)
  have hdriver : pc ≠ .attach → pc ≠ .poll → pc ≠ .writeIdle → s.driver = .pollStatus :=
    fun hattach hpoll hidle => h.driver_eq (hwork hattach hpoll) (hstatus hidle hpoll)
  cases pc with
  | attach =>
      exact
        { unwritten := h.unwritten
          quiet := fun hd => ⟨.inr (.inl rfl), (h.quiet hd).2⟩
          announced := fun hready => absurd hready (hstatus nofun nofun)
          sampled := h.sampled }
  | poll => exact h.poll hat
  | writeBusy =>
      refine .of_pollStatus (hdriver nofun nofun nofun) fun hready => ?_
      exact absurd hready (by decide : statusBusy ≠ statusReady)
  | readCounter | writeCounter =>
      refine .of_pollStatus (hdriver nofun nofun nofun) fun hready => ?_
      exact absurd hready (hstatus nofun nofun)
  | writeReady => exact .of_pollStatus (hdriver nofun nofun nofun) fun _ => .inl rfl
  | writeIdle =>
      exact
        { unwritten := h.unwritten
          quiet := fun hd => absurd hd (hwork nofun nofun)
          announced := fun _ => .inr ⟨rfl, rfl⟩
          sampled := h.sampled }
  | stopped => exact absurd rfl hstopped
  | failed => exact absurd rfl hfailed

theorem Serving.attachThrows (h : Serving s) (hat : s.chip = .attach) :
    Serving { s with chip := .failed } where
  unwritten := h.unwritten
  quiet := fun hd => ⟨.inr (.inr rfl), (h.quiet hd).2⟩
  announced := fun hready => by
    refine absurd hready (h.not_announced ?_ ?_)
    · rw [hat]
      decide
    · rw [hat]
      decide
  sampled := h.sampled

/-- Every access but the driver's RESET keeps it. -/
theorem Serving.step (h : Serving s) (hstep : s.step a = some t)
    (ha : a ≠ .driver .writeReset) : Serving t := by
  obtain ⟨henabled, rfl⟩ := step_eq_some hstep
  cases a with
  | driver pc => exact h.driver henabled fun hpc => ha (congrArg Access.driver hpc)
  | chip pc => exact h.chip henabled
  | attachThrows => exact h.attachThrows henabled

/-! ## From the driver's RESET on -/

/-- RESET lies in `control`, and the chip will poll it or has taken it, unless
the IDLE of the last command is still due. -/
structure Posted (s : DriverChip) : Prop where
  written : s.ResetWritten
  control : s.dev.control = ctrlReset
  chip : s.chip = .poll ∨ s.chip = .writeIdle ∨ s.chip = .stopped

theorem Posted.kept (h : Posted s) : Kept s where
  held := fun _ => .inr h.control
  answered := fun ⟨_, _, hlost⟩ => hlost h.control

/-- The driver writes RESET when READY is up. -/
theorem Serving.posted (h : Serving s) (hat : s.driver = .writeReset) :
    Posted (s.driverMoved .writeReset) where
  written := .inl rfl
  control := rfl
  chip := by
    rcases h.announced (h.sampled (.inr hat)) with hidle | ⟨hpoll, -⟩
    · exact .inr (.inl hidle)
    · exact .inl hpoll

/-- A driver that has written RESET has only its join left. -/
theorem ResetWritten.step (h : s.ResetWritten) (hstep : s.step a = some t) : t.ResetWritten := by
  obtain ⟨henabled, rfl⟩ := step_eq_some hstep
  cases a with
  | driver pc =>
      obtain ⟨hat, -⟩ := henabled
      rcases h with hd | hd
      · obtain rfl := hat.symm.trans hd
        exact .inr rfl
      · obtain rfl := hat.symm.trans hd
        exact .inr rfl
  | chip pc => cases pc <;> exact h
  | attachThrows => exact h

/-- Every access but the chip's IDLE keeps it. -/
theorem Posted.step (h : Posted s) (hstep : s.step a = some t) (ha : a ≠ .chip .writeIdle) :
    Posted t := by
  have hwritten := h.written.step hstep
  obtain ⟨henabled, rfl⟩ := step_eq_some hstep
  cases a with
  | driver pc =>
      obtain ⟨hat, -⟩ := henabled
      rcases h.written with hd | hd
      · obtain rfl := hat.symm.trans hd
        exact ⟨hwritten, h.control, h.chip⟩
      · obtain rfl := hat.symm.trans hd
        exact ⟨hwritten, h.control, h.chip⟩
  | chip pc =>
      obtain ⟨hat, hstopped, -⟩ := henabled
      rcases h.chip with hc | hc | hc
      · obtain rfl := hat.symm.trans hc
        have hstop : dispatch s.dev.control = .stopped := by
          rw [h.control]
          rfl
        exact ⟨hwritten, h.control, .inr (.inr hstop)⟩
      · obtain rfl := hat.symm.trans hc
        exact absurd rfl ha
      · exact absurd (hat.symm.trans hc) hstopped
  | attachThrows =>
      rcases h.chip with hc | hc | hc
      · cases henabled.symm.trans hc
      · cases henabled.symm.trans hc
      · cases henabled.symm.trans hc

/-! ## The shutdown that hangs -/

/-- The driver waits for a chip that has nothing left to read. -/
structure Hung (s : DriverChip) : Prop where
  driver : s.driver = .join
  chip : s.chip = .poll
  control : s.dev.control = ctrlIdle

/-- All that happens to a hung pair is that the chip polls. -/
theorem Hung.step (h : Hung s) (hstep : s.step a = some t) : a = .chip .poll ∧ t = s := by
  obtain ⟨henabled, rfl⟩ := step_eq_some hstep
  cases a with
  | driver pc =>
      obtain ⟨hat, -, hjoin⟩ := henabled
      rcases hjoin (hat.symm.trans h.driver) with hc | hc
      · cases hc.symm.trans h.chip
      · cases hc.symm.trans h.chip
  | chip pc =>
      obtain ⟨hat, -⟩ := henabled
      obtain rfl := hat.symm.trans h.chip
      exact ⟨rfl, chipMoved_poll h.chip h.control⟩
  | attachThrows => cases henabled.symm.trans h.chip

theorem Hung.not_kept (h : Hung s) : ¬Kept s := by
  intro hkept
  refine hkept.answered ⟨h.driver, h.chip, ?_⟩
  rw [h.control]
  decide

/-- A hung pair stays as it is. -/
theorem Hung.run {ops : List Access} (h : Hung s) (hrun : system.Run s ops t) : t = s := by
  induction hrun with
  | nil s => rfl
  | cons hstep _ ih =>
      obtain ⟨-, rfl⟩ := h.step hstep
      exact ih h

/-! ## Which interleavings keep the command -/

/-- The chip's IDLE wipes out a RESET that has been written. -/
theorem ResetWritten.not_kept (h : s.ResetWritten) (hstep : s.step (.chip .writeIdle) = some t) :
    ¬Kept t := by
  intro hkept
  have hheld := hkept.held (h.step hstep)
  obtain ⟨-, rfl⟩ := step_eq_some hstep
  rcases hheld with hstopped | hreset
  · cases hstopped
  · exact absurd hreset (by decide : ctrlIdle ≠ ctrlReset)

/-- **When no command is lost.**  Every state an interleaving passes through
keeps the driver's RESET if and only if the chip's IDLE does not come after
it. -/
theorem kept_iff {ops : List Access} (hrun : system.Run start ops s) :
    (∀ before u, before <+: ops → system.Run start before u → Kept u) ↔
      ¬[Access.driver .writeReset, .chip .writeIdle].Sublist ops := by
  constructor
  · intro hall hsub
    obtain ⟨before, after, x, y, mid, v, w, rfl, hbefore, hidle, hreset, hmid⟩ :=
      hrun.of_pair_sublist hsub
    have hwritten : v.ResetWritten := by
      obtain ⟨-, rfl⟩ := step_eq_some hreset
      exact hmid.preserves (I := ResetWritten) (fun _ _ _ h hst => h.step hst) (.inl rfl)
    exact hwritten.not_kept hidle
      (hall (before ++ [.chip .writeIdle]) w ⟨after, by simp⟩ (hbefore.concat hidle))
  · intro horder before u hprefix hbefore
    have hphase : Serving u ∨ Posted u := by
      refine hbefore.preserves_phases (a := .driver .writeReset) (b := .chip .writeIdle)
        ?_ ?_ ?_ Serving.start ?_
      · exact fun _ _ _ h hst ha => h.step hst ha
      · intro x y h hst
        obtain ⟨⟨hat, -⟩, rfl⟩ := step_eq_some hst
        exact h.posted hat
      · exact fun _ _ _ h hst ha => h.step hst ha
      · exact fun hsub => horder (hsub.trans hprefix.sublist)
    rcases hphase with h | h
    · exact h.kept
    · exact h.kept

/-- The driver reads READY, and writes RESET when the chip has written IDLE. -/
def orderly : List Access :=
  [ .driver .writeStart, .chip .attach, .chip .poll, .chip .writeBusy, .chip .readCounter
  , .chip .writeCounter, .chip .writeReady, .driver .pollStatus, .chip .writeIdle
  , .driver .readCounter, .driver .writeReset, .chip .poll, .driver .join ]

theorem kept_orderly :
    (∃ s, system.Run start orderly s ∧ s.driver = .joined) ∧
      ∀ before u, before <+: orderly → system.Run start before u → Kept u := by
  obtain ⟨s, hexec, hs⟩ := exec_of_any step start orderly (·.driver = .joined) (by decide)
  have hrun : system.Run start orderly s := run_of_exec hexec
  exact ⟨⟨s, hrun, of_decide_eq_true hs⟩, (kept_iff hrun).mpr (by decide)⟩

/-- The driver reads READY, and writes RESET before the chip has written IDLE. -/
def hasty : List Access :=
  [ .driver .writeStart, .chip .attach, .chip .poll, .chip .writeBusy, .chip .readCounter
  , .chip .writeCounter, .chip .writeReady, .driver .pollStatus, .driver .readCounter
  , .driver .writeReset, .chip .writeIdle ]

theorem hasty_hangs :
    ∃ u, system.Run start hasty u ∧ ¬Kept u ∧ u.driver = .join ∧ u.chip = .poll ∧
      u.dev.control = ctrlIdle ∧ ∀ more v, system.Run u more v → v = u := by
  obtain ⟨u, hexec, hu⟩ := exec_of_any step start hasty
    (fun u => u.driver = .join ∧ u.chip = .poll ∧ u.dev.control = ctrlIdle) (by decide)
  obtain ⟨hdriver, hchip, hcontrol⟩ := of_decide_eq_true hu
  have hung : Hung u := ⟨hdriver, hchip, hcontrol⟩
  exact ⟨u, run_of_exec hexec, hung.not_kept, hdriver, hchip, hcontrol, fun _ _ hrun =>
    hung.run hrun⟩

end DriverChip

end PorthCore.Ports.MockHandshake
