import PorthCore.Ports.NetworkPortal

/-!
# Two parsers of one frame

The kernel filter finds the UDP header behind `ihl` words of IPv4 header.
`poll_rx` takes what lies behind 42 bytes, up to the end of the frame, for the
payload.  On a frame the filter redirects the two mean the same bytes exactly
if the header has no options and nothing follows the datagram
(`payload_agrees_iff`).
-/

namespace PorthCore.Ports.PayloadView

open PorthCore.Verified.ByteProbe
open PorthCore.Verified.ByteProbe.Probe
open PorthCore.Ports.XdpPortal
open PorthCore.Ports.XskRings
open PorthCore.Ports.XdpFilter
open PorthCore.Ports.NetworkPortal

/-- The length field of the UDP header, header included. -/
def udpLength (p : Packet) : Nat := p.word (p.udp + 4)

/-- The header lengths and the UDP length fit the frame; padding may follow. -/
structure Consistent (p : Packet) : Prop where
  ihl : 5 ≤ p.ihl
  header : 8 ≤ udpLength p
  fits : p.udp + udpLength p ≤ p.len

/-- The bytes behind the UDP header, as many as its length field says. -/
def udpPayload (p : Packet) : List UInt8 :=
  (List.range' (p.udp + 8) (udpLength p - 8)).map p.bytes

variable {Rx Fill : Type} {xsk : Xsk Rx Fill} {kernel : Kernel Rx Fill}
  {rxHolds : Rx → Nat → List XdpDesc → Prop} {fillHolds : Fill → List UInt64 → Prop}
  {portal : PorthNetworkPortal Rx Fill} {area : Nat → UInt8} {stringMax lag : Nat}
  {desc : XdpDesc} {rest : List XdpDesc} {key : UInt32}

/-- Behind the filter, `poll_rx` prints everything from byte 42 on. -/
theorem printed_of_redirected (hc : XskContract xsk kernel rxHolds fillHolds)
    (hmax : SizeLimit stringMax) (hrx : rxHolds portal.rxRing lag (desc :: rest))
    (hredirect : (porthXdpProg key desc.len.toNat).run (frameAt area desc).bytes =
      .redirectMap key)
    (hlen : 42 ≤ desc.len.toNat) :
    (pollRx xsk stringMax area portal).printed =
      some ((List.range' 42 (desc.len.toNat - 42)).map (frameAt area desc).bytes) := by
  have haccepted := (porthXdpProg_decides key (frameAt area desc)).iff.mp hredirect
  have htype : 256 * ((frameAt area desc).bytes 12).toNat +
      ((frameAt area desc).bytes 13).toNat = 0x0800 := haccepted.etherType
  have h12 : (frameAt area desc).bytes 12 = 0x08 := by
    apply UInt8.toNat_inj.mp
    show _ = 8
    have hlt := ((frameAt area desc).bytes 13).toNat_lt
    omega
  have h13 : (frameAt area desc).bytes 13 = 0x00 := by
    apply UInt8.toNat_inj.mp
    show _ = 0
    have hlt := ((frameAt area desc).bytes 13).toNat_lt
    omega
  have hrun := (extract_payload hmax (run_isIPv4.mpr ⟨h12, h13⟩) hlen).1
  obtain ⟨rx, -, heq⟩ := pollRx_ok hc hrx hrun
  rw [heq]

/-- Two windows of one byte string that differ in length differ. -/
theorem length_of_windows {bytes : Nat → UInt8} {a b n m : Nat}
    (h : (List.range' a n).map bytes = (List.range' b m).map bytes) : n = m := by
  simpa using congrArg List.length h

/-- **When the two parsers agree.**  For a frame the filter redirects, whose
header lengths and UDP length fit it, `poll_rx` prints the UDP payload if and
only if the IPv4 header has no options and the frame ends with the datagram. -/
theorem payload_agrees_iff (hc : XskContract xsk kernel rxHolds fillHolds)
    (hmax : SizeLimit stringMax) (hrx : rxHolds portal.rxRing lag (desc :: rest))
    (hredirect : (porthXdpProg key desc.len.toNat).run (frameAt area desc).bytes =
      .redirectMap key)
    (hcons : Consistent (frameAt area desc)) :
    (pollRx xsk stringMax area portal).printed = some (udpPayload (frameAt area desc)) ↔
      (frameAt area desc).ihl = 5 ∧
        (frameAt area desc).len = 34 + udpLength (frameAt area desc) := by
  have hlen : (frameAt area desc).len = desc.len.toNat := rfl
  have hudp : (frameAt area desc).udp = 14 + 4 * (frameAt area desc).ihl := rfl
  have hihl := hcons.ihl
  have hheader := hcons.header
  have hfits := hcons.fits
  rw [printed_of_redirected hc hmax hrx hredirect (by omega), Option.some.injEq, hlen]
  constructor
  · intro h
    have hcount := length_of_windows h
    -- The datagram starts at byte 34 or later and ends inside the frame.
    exact ⟨by omega, by omega⟩
  · rintro ⟨hfive, hend⟩
    have hstart : (frameAt area desc).udp + 8 = 42 := by omega
    have hcount : desc.len.toNat - 42 = udpLength (frameAt area desc) - 8 := by omega
    rw [udpPayload, hstart, hcount]

/-! ## A frame without and with padding -/

/-- A datagram of 13 bytes to port 12345, in a frame without options. -/
def datagramArea : Nat → UInt8 := fun i =>
  if i = 12 then 0x08 else if i = 14 then 0x45 else if i = 23 then 17 else if i = 36 then 0x30
  else if i = 37 then 0x39 else if i = 39 then 13 else if 42 ≤ i ∧ i < 47 then 0x41 else 0

/-- The frame at the start of the area, in `len` bytes. -/
def datagramPortal (len : UInt32) : PorthNetworkPortal XskRingCons XskRingProd where
  rxRing := rxOf { addr := 0, len := len } 1
  fillRing := fillEmpty

theorem unpadded_agrees :
    (pollRx xskDefault (2 ^ 62 - 1) datagramArea (datagramPortal 47)).printed =
      some (udpPayload (frameAt datagramArea { addr := 0, len := 47 })) := by
  have hrx : RxHolds (datagramPortal 47).rxRing 0 [{ addr := 0, len := 47 }] :=
    rxHolds_rxOf _ (by decide)
  have hredirect : (porthXdpProg 0 47).run
      (frameAt datagramArea { addr := 0, len := 47 }).bytes = .redirectMap 0 := by decide
  exact (payload_agrees_iff xskDefault_contract ⟨by decide, by decide⟩ hrx hredirect
    ⟨by decide, by decide, by decide⟩).mpr ⟨by decide, by decide⟩

/-- Padded to the 60 bytes of the shortest Ethernet frame, the same datagram
is printed with 13 bytes of padding. -/
theorem padding_printed :
    (porthXdpProg 0 60).run (frameAt datagramArea { addr := 0, len := 60 }).bytes =
        .redirectMap 0 ∧
      Consistent (frameAt datagramArea { addr := 0, len := 60 }) ∧
      udpPayload (frameAt datagramArea { addr := 0, len := 60 }) =
        List.replicate 5 0x41 ∧
      (pollRx xskDefault (2 ^ 62 - 1) datagramArea (datagramPortal 60)).printed =
        some (List.replicate 5 0x41 ++ List.replicate 13 0) ∧
      (pollRx xskDefault (2 ^ 62 - 1) datagramArea (datagramPortal 60)).printed ≠
        some (udpPayload (frameAt datagramArea { addr := 0, len := 60 })) :=
  ⟨by decide, ⟨by decide, by decide, by decide⟩, by decide, by decide, by decide⟩

end PorthCore.Ports.PayloadView
