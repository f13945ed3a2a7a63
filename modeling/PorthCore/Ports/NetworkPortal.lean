import PorthCore.Ports.XdpFilter
import PorthCore.Ports.XskRings

/-!
# `PorthNetworkPortal::poll_rx`

The second portal parses what it receives: it looks for the EtherType of IPv4
and prints what lies behind a prefix of 42 bytes.  Its UMEM is a function of
the offset from the start of the area, and a call reports what it read there,
so that reading outside the frame is a fact about the model.

`stringMax` is `std::string::max_size()`; above it the constructor throws.
An exception leaves the function before the frame is put back and the entry
released.
-/

namespace PorthCore.Ports.NetworkPortal

open PorthCore.Verified.ByteProbe
open PorthCore.Verified.ByteProbe.Probe
open PorthCore.Ports.XdpPortal
open PorthCore.Ports.XskRings
open PorthCore.Ports.XdpFilter

/-- `UMEM_SIZE`, 4096 frames of 4096 bytes. -/
def umemSize : Nat := 4096 * 4096

/-- `TOTAL_HDR_LEN`, that is `ETH_HLEN + IP_HLEN + UDP_HLEN`. -/
def totalHdrLen : UInt64 := 14 + 20 + 8

/-- The two rings the portal polls. -/
structure PorthNetworkPortal (Rx Fill : Type) where
  rxRing : Rx
  fillRing : Fill

/-- What leaves `poll_rx`. -/
inductive StdException
  | lengthError
  deriving DecidableEq, Repr

/-! ## The parser -/

/-- The EtherType test, from left to right. -/
def isIPv4 : Probe Bool := do
  let high ← byte 12
  if high = 0x08 then do
    let low ← byte 13
    pure (decide (low = 0x00))
  else pure false

/-- `desc->len - TOTAL_HDR_LEN`, in `size_t`. -/
def payloadLen (len : UInt32) : UInt64 := len.toUInt64 - totalHdrLen

/-- `std::string(s, count)` for the bytes at an offset. -/
def makeString (stringMax offset : Nat) (count : UInt64) :
    Probe (Except StdException (List UInt8)) :=
  if stringMax < count.toNat then pure (.error .lengthError)
  else do
    let bytes ← span offset count.toNat
    pure (.ok bytes)

/-- The payload of a frame, if `poll_rx` prints one. -/
def extract (stringMax : Nat) (len : UInt32) :
    Probe (Except StdException (Option (List UInt8))) := do
  let ipv4 ← isIPv4
  if ipv4 then do
    let payload ← makeString stringMax totalHdrLen.toNat (payloadLen len)
    pure (payload.map some)
  else pure (.ok none)

/-! ## A call of `poll_rx` -/

/-- What a call leaves: `result` is the number returned or the exception that
left it, `printed` the payload, `computedLen` the payload length if one was
computed, `reads` the offsets in the area it looked at. -/
structure Poll (Rx Fill : Type) where
  portal : PorthNetworkPortal Rx Fill
  result : Except StdException UInt32
  printed : Option (List UInt8)
  computedLen : Option UInt64
  reads : List Nat

variable {Rx Fill : Type}

/-- The frame a descriptor points at, and whatever lies behind it. -/
def frameAt (area : Nat → UInt8) (desc : XdpDesc) : Packet where
  bytes := fun i => area (desc.addr.toNat + i)
  len := desc.len.toNat

/-- The end of the loop body: the frame goes back if the fill ring has a
slot. -/
def refill (xsk : Xsk Rx Fill) (fillRing : Fill) (addr : UInt64) : Fill :=
  match xsk.reserve fillRing with
  | (some fIdx, fill) => xsk.submit (xsk.setFillAddr fill fIdx addr)
  | (none, fill) => fill

/-- `poll_rx`.  It peeks one entry, so its loop runs once or not at all. -/
def pollRx (xsk : Xsk Rx Fill) (stringMax : Nat) (area : Nat → UInt8)
    (portal : PorthNetworkPortal Rx Fill) : Poll Rx Fill :=
  match xsk.peek portal.rxRing with
  | (none, rx) =>
      { portal := { portal with rxRing := rx }
        result := .ok 0
        printed := none
        computedLen := none
        reads := [] }
  | (some idx, rx) =>
      let desc := xsk.rxDesc rx idx
      let bytes := (frameAt area desc).bytes
      let computedLen := if isIPv4.run bytes then some (payloadLen desc.len) else none
      let reads := ((extract stringMax desc.len).reads bytes).map (desc.addr.toNat + ·)
      match (extract stringMax desc.len).run bytes with
      | .error exception =>
          { portal := { portal with rxRing := rx }
            result := .error exception
            printed := none
            computedLen := computedLen
            reads := reads }
      | .ok printed =>
          { portal :=
              { rxRing := xsk.release rx
                fillRing := refill xsk portal.fillRing desc.addr }
            result := .ok 1
            printed := printed
            computedLen := computedLen
            reads := reads }

/-! ## What the parser does -/

/-- What is promised of `max_size`: any 32-bit length is allowed, and no
object is larger than half the address space. -/
structure SizeLimit (stringMax : Nat) : Prop where
  words : 2 ^ 32 ≤ stringMax
  objects : stringMax < 2 ^ 63

section Parser

variable {bytes : Nat → UInt8} {stringMax : Nat} {len : UInt32}

theorem run_isIPv4 : isIPv4.run bytes = true ↔ bytes 12 = 0x08 ∧ bytes 13 = 0x00 := by
  unfold isIPv4
  rw [run_bind, run_byte]
  by_cases hhigh : bytes 12 = 0x08
  · rw [if_pos hhigh, run_bind, run_byte, run_pure, decide_eq_true_iff]
    exact ⟨fun h => ⟨hhigh, h⟩, fun h => h.2⟩
  · simp [hhigh]

/-- Byte 13 is looked at only behind 0x08. -/
theorem within_isIPv4 {n : Nat} :
    Within n bytes isIPv4 ↔ 12 < n ∧ (bytes 12 = 0x08 → 13 < n) := by
  unfold isIPv4
  rw [within_bind, within_byte, run_byte]
  by_cases hhigh : bytes 12 = 0x08
  · simp [hhigh, within_bind, within_byte, within_pure]
  · simp [hhigh, within_pure]

theorem toNat_payloadLen (h : 42 ≤ len.toNat) : (payloadLen len).toNat = len.toNat - 42 := by
  have hle : totalHdrLen ≤ len.toUInt64 := by
    rw [UInt64.le_iff_toNat_le, UInt32.toNat_toUInt64]
    exact h
  rw [payloadLen, UInt64.toNat_sub_of_le _ _ hle, UInt32.toNat_toUInt64]
  rfl

/-- Below 42 bytes the subtraction wraps. -/
theorem toNat_payloadLen_wraps (h : len.toNat < 42) :
    (payloadLen len).toNat + 42 = len.toNat + 2 ^ 64 := by
  rw [payloadLen, UInt64.toNat_sub, UInt32.toNat_toUInt64]
  show (2 ^ 64 - 42 + len.toNat) % 2 ^ 64 + 42 = _
  omega

theorem extract_other (h : isIPv4.run bytes = false) :
    (extract stringMax len).run bytes = .ok none ∧
      (extract stringMax len).reads bytes = isIPv4.reads bytes := by
  unfold extract
  rw [run_bind, reads_bind, h]
  simp

theorem extract_payload (hmax : SizeLimit stringMax) (h : isIPv4.run bytes = true)
    (hlen : 42 ≤ len.toNat) :
    (extract stringMax len).run bytes =
        .ok (some ((List.range' 42 (len.toNat - 42)).map bytes)) ∧
      Within len.toNat bytes (extract stringMax len) := by
  have hcount := toNat_payloadLen hlen
  have hlt := len.toNat_lt
  have hwords := hmax.words
  have hprefix : totalHdrLen.toNat = 42 := rfl
  have hfits : ¬stringMax < (payloadLen len).toNat := by omega
  unfold extract makeString
  rw [run_bind, within_bind, h, hprefix, if_pos rfl, if_neg hfits, hcount]
  constructor
  · rw [run_bind, run_bind, run_span]
    rfl
  · refine ⟨within_isIPv4.mpr ⟨by omega, fun _ => by omega⟩, ?_⟩
    refine within_bind.mpr ⟨within_bind.mpr ⟨within_span (by omega), within_pure _ _⟩, ?_⟩
    exact within_pure _ _

/-- The wrapped length is above any limit. -/
theorem extract_throws (hmax : SizeLimit stringMax) (h : isIPv4.run bytes = true)
    (hlen : len.toNat < 42) : (extract stringMax len).run bytes = .error .lengthError := by
  have hcount := toNat_payloadLen_wraps hlen
  have hobjects := hmax.objects
  have hbig : stringMax < (payloadLen len).toNat := by omega
  unfold extract makeString
  rw [run_bind, h, if_pos rfl, if_pos hbig]
  rfl

end Parser

section

variable {xsk : Xsk Rx Fill} {kernel : Kernel Rx Fill}
  {rxHolds : Rx → Nat → List XdpDesc → Prop} {fillHolds : Fill → List UInt64 → Prop}
  {portal : PorthNetworkPortal Rx Fill} {area : Nat → UInt8} {stringMax lag : Nat}
  {desc : XdpDesc} {rest : List XdpDesc} {avail : List UInt64}

/-- Both portals put a frame back alike. -/
theorem recycleFrame_fillRing (xsk : Xsk Rx Fill) (portal : PorthXDPPortal Rx Fill)
    (addr : UInt64) :
    (portal.recycleFrame xsk addr).fillRing = refill xsk portal.fillRing addr := by
  unfold PorthXDPPortal.recycleFrame refill
  rcases xsk.reserve portal.fillRing with ⟨_ | idx, fill⟩ <;> rfl

theorem holds_refill (hc : XskContract xsk kernel rxHolds fillHolds) (rx : Rx) {fill : Fill}
    (hfill : fillHolds fill avail) (addr : UInt64) :
    fillHolds (refill xsk fill addr) (recycledAvail xsk fill avail addr) := by
  have h := hc.recycle { rxRing := rx, fillRing := fill, umemStart := 0, umemEnd := 0 } hfill addr
  rwa [recycleFrame_fillRing] at h

/-- A call that finds nothing. -/
theorem pollRx_nil (hc : XskContract xsk kernel rxHolds fillHolds)
    (hrx : rxHolds portal.rxRing lag []) :
    ∃ rx, rxHolds rx lag [] ∧
      (pollRx xsk stringMax area portal).portal = { portal with rxRing := rx } := by
  obtain ⟨rx, hpeek, hnext⟩ := hc.peek_nil hrx
  refine ⟨rx, hnext, ?_⟩
  rw [pollRx, hpeek]

/-- A call whose string fits. -/
theorem pollRx_ok (hc : XskContract xsk kernel rxHolds fillHolds)
    (hrx : rxHolds portal.rxRing lag (desc :: rest)) {printed : Option (List UInt8)}
    (hextract : (extract stringMax desc.len).run (frameAt area desc).bytes = .ok printed) :
    ∃ rx, rxHolds rx lag rest ∧
      pollRx xsk stringMax area portal =
        { portal := { rxRing := rx, fillRing := refill xsk portal.fillRing desc.addr }
          result := .ok 1
          printed := printed
          computedLen :=
            if isIPv4.run (frameAt area desc).bytes then some (payloadLen desc.len) else none
          reads := ((extract stringMax desc.len).reads (frameAt area desc).bytes).map
            (desc.addr.toNat + ·) } := by
  obtain ⟨idx, rx, hpeek, rfl, hnext⟩ := hc.peek_cons hrx
  refine ⟨xsk.release rx, hc.release hnext, ?_⟩
  rw [pollRx, hpeek]
  simp only [hextract]

/-- A call whose string does not fit leaves the entry peeked. -/
theorem pollRx_error (hc : XskContract xsk kernel rxHolds fillHolds)
    (hrx : rxHolds portal.rxRing lag (desc :: rest)) {exception : StdException}
    (hextract : (extract stringMax desc.len).run (frameAt area desc).bytes = .error exception) :
    (pollRx xsk stringMax area portal).result = .error exception := by
  obtain ⟨idx, rx, hpeek, rfl, -⟩ := hc.peek_cons hrx
  rw [pollRx, hpeek]
  simp only [hextract]

/-- The reads of a call are those of its parser, moved to the frame. -/
theorem pollRx_reads (hc : XskContract xsk kernel rxHolds fillHolds)
    (hrx : rxHolds portal.rxRing lag (desc :: rest)) :
    (pollRx xsk stringMax area portal).reads =
      ((extract stringMax desc.len).reads (frameAt area desc).bytes).map
        (desc.addr.toNat + ·) := by
  obtain ⟨idx, rx, hpeek, rfl, -⟩ := hc.peek_cons hrx
  rw [pollRx, hpeek]
  dsimp only
  split <;> rfl

/-! ## Which frames are tolerated -/

/-- The call reads inside the frame and inside the area, computes no length
that wraps, returns, puts the frame back if there is a slot, releases the
entry, and prints nothing for a frame that is short or not IPv4. -/
structure Tolerates (xsk : Xsk Rx Fill) (rxHolds : Rx → Nat → List XdpDesc → Prop)
    (fillHolds : Fill → List UInt64 → Prop) (area : Nat → UInt8)
    (portal : PorthNetworkPortal Rx Fill) (lag : Nat) (desc : XdpDesc) (rest : List XdpDesc)
    (avail : List UInt64) (out : Poll Rx Fill) : Prop where
  reads : ∀ i ∈ out.reads,
    desc.addr.toNat ≤ i ∧ i < desc.addr.toNat + desc.len.toNat ∧ i < umemSize
  noWrap : ∀ n, out.computedLen = some n → n.toNat + 42 = desc.len.toNat
  returns : out.result = .ok 1
  recycled : fillHolds out.portal.fillRing
    (recycledAvail xsk portal.fillRing avail desc.addr)
  released : rxHolds out.portal.rxRing lag rest
  quiet : desc.len.toNat < 42 ∨ (frameAt area desc).word 12 ≠ 0x0800 → out.printed = none

/-- The frame is long enough for what the parser looks at: byte 12, byte 13
behind 0x08, and the prefix behind 0x08 0x00. -/
structure LongEnough (p : Packet) : Prop where
  high : 12 < p.len
  low : p.bytes 12 = 0x08 → 13 < p.len
  headers : p.bytes 12 = 0x08 → p.bytes 13 = 0x00 → 42 ≤ p.len

/-- The parser reads inside a frame that is long enough, and gets through. -/
theorem extract_longEnough (hmax : SizeLimit stringMax)
    (h : LongEnough (frameAt area desc)) :
    Within desc.len.toNat (frameAt area desc).bytes (extract stringMax desc.len) ∧
      ∃ printed, (extract stringMax desc.len).run (frameAt area desc).bytes = .ok printed ∧
        (isIPv4.run (frameAt area desc).bytes = false → printed = none) := by
  cases htype : isIPv4.run (frameAt area desc).bytes with
  | false =>
      obtain ⟨hrun, hreads⟩ : (extract stringMax desc.len).run _ = .ok none ∧ _ :=
        extract_other htype
      refine ⟨?_, none, hrun, fun _ => rfl⟩
      unfold Within
      rw [hreads]
      exact within_isIPv4.mpr ⟨h.high, h.low⟩
  | true =>
      obtain ⟨hhigh, hlow⟩ := run_isIPv4.mp htype
      obtain ⟨hrun, hwithin⟩ := extract_payload hmax htype (h.headers hhigh hlow)
      exact ⟨hwithin, _, hrun, fun hfalse => Bool.noConfusion hfalse⟩

/-- A call that reads inside the frame and returns had a frame long enough. -/
theorem Tolerates.longEnough (hc : XskContract xsk kernel rxHolds fillHolds)
    (hmax : SizeLimit stringMax) (hrx : rxHolds portal.rxRing lag (desc :: rest))
    (h : Tolerates xsk rxHolds fillHolds area portal lag desc rest avail
      (pollRx xsk stringMax area portal)) :
    LongEnough (frameAt area desc) := by
  have hreads : (pollRx xsk stringMax area portal).reads = _ := pollRx_reads hc hrx
  have hwithin : Within desc.len.toNat (frameAt area desc).bytes
      (extract stringMax desc.len) := by
    intro i hi
    have hread := h.reads (desc.addr.toNat + i) (by
      rw [hreads]
      exact List.mem_map_of_mem hi)
    omega
  obtain ⟨hhigh, hlow⟩ := within_isIPv4.mp (within_bind.mp hwithin).1
  refine ⟨hhigh, hlow, ?_⟩
  intro h12 h13
  by_contra hshort
  have hthrows := extract_throws hmax (run_isIPv4.mpr ⟨h12, h13⟩) (not_le.mp hshort)
  have hreturns := h.returns
  rw [pollRx_error hc hrx hthrows] at hreturns
  cases hreturns

private theorem LongEnough.tolerates (hc : XskContract xsk kernel rxHolds fillHolds)
    (hmax : SizeLimit stringMax) (hrx : rxHolds portal.rxRing lag (desc :: rest))
    (hfill : fillHolds portal.fillRing avail)
    (hfits : desc.addr.toNat + desc.len.toNat ≤ umemSize)
    (h : LongEnough (frameAt area desc)) :
    Tolerates xsk rxHolds fillHolds area portal lag desc rest avail
      (pollRx xsk stringMax area portal) := by
  have hreads : (pollRx xsk stringMax area portal).reads = _ := pollRx_reads hc hrx
  obtain ⟨hwithin, printed, hrun, hother⟩ := extract_longEnough hmax h
  obtain ⟨rx, hreleased, heq⟩ := pollRx_ok hc hrx hrun
  rw [heq]
  refine
    { reads := ?_
      noWrap := ?_
      returns := rfl
      recycled := holds_refill hc portal.rxRing hfill desc.addr
      released := hreleased
      quiet := ?_ }
  · intro i hi
    obtain ⟨j, hj, rfl⟩ := List.mem_map.mp hi
    have hlt := hwithin j hj
    exact ⟨by omega, by omega, by omega⟩
  · intro n hn
    obtain ⟨htype, hsome⟩ := Option.ite_none_right_eq_some.mp hn
    cases hsome
    obtain ⟨h12, h13⟩ := run_isIPv4.mp htype
    have hlen : 42 ≤ desc.len.toNat := h.headers h12 h13
    rw [toNat_payloadLen hlen]
    omega
  · intro hquiet
    apply hother
    rw [Bool.eq_false_iff]
    intro htype
    obtain ⟨h12, h13⟩ := run_isIPv4.mp htype
    rcases hquiet with hshort | htype'
    · have hlen : 42 ≤ desc.len.toNat := h.headers h12 h13
      omega
    · apply htype'
      show 256 * _ + _ = _
      rw [h12, h13]
      rfl

/-- **`poll_rx` tolerates the frames that are long enough.**  Whatever the
frame is, a call that peeks it does all it should if and only if the frame has
byte 12, byte 13 behind a 0x08, and 42 bytes behind a 0x08 0x00. -/
theorem tolerates_iff_longEnough (hc : XskContract xsk kernel rxHolds fillHolds)
    (hmax : SizeLimit stringMax) (area : Nat → UInt8)
    (hrx : rxHolds portal.rxRing lag (desc :: rest)) (hfill : fillHolds portal.fillRing avail)
    (hfits : desc.addr.toNat + desc.len.toNat ≤ umemSize) :
    Tolerates xsk rxHolds fillHolds area portal lag desc rest avail
        (pollRx xsk stringMax area portal) ↔
      LongEnough (frameAt area desc) :=
  ⟨fun h => h.longEnough hc hmax hrx, fun h => h.tolerates hc hmax hrx hfill hfits⟩

end

/-! ## A frame of 20 bytes -/

/-- An area that holds 0x08 0x00 or 0x08 0x06 as the EtherType of its first
frame and zeros elsewhere. -/
def areaOfType (low : UInt8) : Nat → UInt8 := fun i =>
  if i = 12 then 0x08 else if i = 13 then low else 0

/-- 20 bytes at the start of the area. -/
def shortDesc : XdpDesc := { addr := 0, len := 20 }

/-- A portal with one short ARP frame to read. -/
def samplePortal : PorthNetworkPortal XskRingCons XskRingProd where
  rxRing := rxOf shortDesc 1
  fillRing := fillEmpty

/-- An ARP frame is put back and released, and nothing is printed. -/
theorem short_arp_tolerated :
    Tolerates xskDefault RxHolds FillHolds (areaOfType 0x06) samplePortal 0 shortDesc [] []
      (pollRx xskDefault (2 ^ 62 - 1) (areaOfType 0x06) samplePortal) :=
  (tolerates_iff_longEnough xskDefault_contract ⟨by decide, by decide⟩ (areaOfType 0x06)
    (rxHolds_rxOf shortDesc (by decide)) fillHolds_fillEmpty (by decide)).mpr
    ⟨by decide, by decide, by decide⟩

/-- An IPv4 frame of 20 bytes: the payload length wraps, the exception leaves
the call, the entry is not released and the frame not put back. -/
theorem short_ipv4_throws :
    let out := pollRx xskDefault (2 ^ 62 - 1) (areaOfType 0x00) samplePortal
    out.result = .error .lengthError ∧ out.computedLen = some (0 - 22) ∧
      out.portal.rxRing.consumer = samplePortal.rxRing.consumer ∧
      out.portal.fillRing.producer = samplePortal.fillRing.producer := by
  decide

end PorthCore.Ports.NetworkPortal
