import PorthCore.Verified.ByteProbe

/-!
# The kernel filter `porth_xdp_prog`

The program follows a packet from `data` to `data_end`, one bounds check
before each header.  It is a `Probe` over the packet's bytes, so that what it
reads can be spoken of; `len` is `data_end - data`.

`Sovereign` is the packet the filter is there for.  The program takes the
length of the IPv4 header from the packet and does not ask whether it is at
least 5 words; this is the only thing it gets wrong
(`exact_iff_no_shortHeader`).
-/

namespace PorthCore.Ports.XdpFilter

open PorthCore.Verified.ByteProbe
open PorthCore.Verified.ByteProbe.Probe

/-- How the program ends: `XDP_PASS`, or a call of `bpf_redirect_map` with a
key of `porth_xsk_map`. -/
inductive XdpAction
  | pass
  | redirectMap (key : UInt32)
  deriving DecidableEq, Repr

/-- `sizeof(struct ethhdr)`. -/
def ethLen : Nat := 14

/-- `sizeof(struct iphdr)`, without options. -/
def ipLen : Nat := 20

/-- `sizeof(struct udphdr)`. -/
def udpLen : Nat := 8

/-- `iph->ihl * 4`, from the first byte of the header. -/
def ihlBytes (versionIhl : UInt8) : Nat := (versionIhl &&& 0xF).toNat * 4

/-- `PORTH_SOVEREIGN_PORT`. -/
def porthSovereignPort : UInt16 := 12345

/-- The end of the program: the UDP header is looked for at `udp`. -/
def matchPort (rxQueueIndex : UInt32) (len udp : Nat) : Probe XdpAction :=
  if len < udp + udpLen then pure .pass
  else do
    let dport ← be16 (udp + 2)
    if dport = porthSovereignPort then pure (.redirectMap rxQueueIndex) else pure .pass

/-- The IPv4 part of the program. -/
def matchUdp (rxQueueIndex : UInt32) (len : Nat) : Probe XdpAction :=
  if len < ethLen + ipLen then pure .pass
  else do
    let protocol ← byte (ethLen + 9)
    if protocol ≠ 17 then pure .pass
    else do
      let versionIhl ← byte ethLen
      matchPort rxQueueIndex len (ethLen + ihlBytes versionIhl)

/-- `porth_xdp_prog` on a packet of `len` bytes. -/
def porthXdpProg (rxQueueIndex : UInt32) (len : Nat) : Probe XdpAction :=
  if len < ethLen then pure .pass
  else do
    let proto ← be16 12
    if proto ≠ 0x0800 then pure .pass
    else matchUdp rxQueueIndex len

/-! ## The packet the filter is for -/

/-- A packet: `len` bytes, and whatever lies behind them. -/
structure Packet where
  bytes : Nat → UInt8
  len : Nat

namespace Packet

/-- The header length field, in words. -/
def ihl (p : Packet) : Nat := (p.bytes 14).toNat % 16

/-- The offset of the UDP header. -/
def udp (p : Packet) : Nat := 14 + 4 * p.ihl

/-- The 16-bit number at an offset. -/
def word (p : Packet) (offset : Nat) : Nat :=
  256 * (p.bytes offset).toNat + (p.bytes (offset + 1)).toNat

/-- Complete headers for Ethernet, IPv4 and UDP, and the port 12345. -/
structure Sovereign (p : Packet) : Prop where
  ethernet : 14 ≤ p.len
  etherType : p.word 12 = 0x0800
  ihl : 5 ≤ p.ihl
  header : 14 + 4 * p.ihl ≤ p.len
  protocol : p.bytes 23 = 17
  datagram : p.udp + 8 ≤ p.len
  port : p.word (p.udp + 2) = 12345

/-- An IPv4 header too short to be one, which passes every test of the
program.  What the program takes for the port overlaps the header. -/
structure ShortHeader (p : Packet) : Prop where
  ihl : p.ihl < 5
  fixed : 34 ≤ p.len
  etherType : p.word 12 = 0x0800
  protocol : p.bytes 23 = 17
  inside : p.udp + 8 ≤ p.len
  port : p.word (p.udp + 2) = 12345

end Packet

/-- What the program tests. -/
structure Packet.Accepted (p : Packet) : Prop where
  fixed : 34 ≤ p.len
  etherType : p.word 12 = 0x0800
  protocol : p.bytes 23 = 17
  inside : p.udp + 8 ≤ p.len
  port : p.word (p.udp + 2) = 12345

theorem Packet.accepted_iff (p : Packet) : p.Accepted ↔ p.Sovereign ∨ p.ShortHeader := by
  constructor
  · intro h
    have hinside : 14 + 4 * p.ihl + 8 ≤ p.len := h.inside
    by_cases hihl : 5 ≤ p.ihl
    · exact .inl
        { ethernet := by omega
          etherType := h.etherType
          ihl := hihl
          header := by omega
          protocol := h.protocol
          datagram := h.inside
          port := h.port }
    · exact .inr
        { ihl := by omega
          fixed := h.fixed
          etherType := h.etherType
          protocol := h.protocol
          inside := h.inside
          port := h.port }
  · rintro (h | h)
    · have hdatagram : 14 + 4 * p.ihl + 8 ≤ p.len := h.datagram
      have hihl := h.ihl
      exact
        { fixed := by omega
          etherType := h.etherType
          protocol := h.protocol
          inside := h.datagram
          port := h.port }
    · exact
        { fixed := h.fixed
          etherType := h.etherType
          protocol := h.protocol
          inside := h.inside
          port := h.port }

private theorem Packet.not_sovereign_of_shortHeader {p : Packet} (h : p.ShortHeader) :
    ¬p.Sovereign := by
  intro hsov
  have hlt := h.ihl
  have hge := hsov.ihl
  omega

/-! ## What the program computes -/

private theorem ihlBytes_eq (p : Packet) : ethLen + ihlBytes (p.bytes ethLen) = p.udp := by
  have hmask : (p.bytes 14 &&& 0xF).toNat = (p.bytes 14).toNat % 16 := by
    rw [UInt8.toNat_and]
    exact Nat.and_two_pow_sub_one_eq_mod (p.bytes 14).toNat 4
  show 14 + (p.bytes 14 &&& 0xF).toNat * 4 = 14 + 4 * ((p.bytes 14).toNat % 16)
  rw [hmask, Nat.mul_comm]

theorem joinBytes_eq_iff (p : Packet) (offset : Nat) (w : UInt16) :
    joinBytes (p.bytes offset) (p.bytes (offset + 1)) = w ↔ p.word offset = w.toNat := by
  rw [← UInt16.toNat_inj, toNat_joinBytes]
  rfl

/-- The action is the redirection under `P` and `XDP_PASS` otherwise. -/
structure Decides (key : UInt32) (action : XdpAction) (P : Prop) : Prop where
  redirect : P → action = .redirectMap key
  pass : ¬P → action = .pass

theorem Decides.reject {key : UInt32} {P : Prop} (h : ¬P) : Decides key .pass P :=
  ⟨fun hP => absurd hP h, fun _ => rfl⟩

theorem Decides.congr {key : UInt32} {action : XdpAction} {P Q : Prop}
    (h : Decides key action P) (hiff : P ↔ Q) : Decides key action Q :=
  ⟨fun hQ => h.redirect (hiff.mpr hQ), fun hQ => h.pass fun hP => hQ (hiff.mp hP)⟩

theorem Decides.iff {key : UInt32} {action : XdpAction} {P : Prop}
    (h : Decides key action P) : action = .redirectMap key ↔ P := by
  constructor
  · intro haction
    by_contra hP
    rw [h.pass hP] at haction
    cases haction
  · exact h.redirect

private theorem matchPort_decides (key : UInt32) (p : Packet) (udp : Nat) :
    Decides key ((matchPort key p.len udp).run p.bytes)
      (udp + 8 ≤ p.len ∧ p.word (udp + 2) = 12345) := by
  unfold matchPort udpLen
  by_cases hinside : p.len < udp + 8
  · rw [if_pos hinside]
    exact .reject (by omega)
  · rw [if_neg hinside, run_bind, run_be16]
    by_cases hport : p.word (udp + 2) = 12345
    · rw [if_pos ((joinBytes_eq_iff p (udp + 2) porthSovereignPort).mpr hport)]
      exact ⟨fun _ => rfl, fun h => absurd ⟨by omega, hport⟩ h⟩
    · rw [if_neg fun h => hport ((joinBytes_eq_iff p (udp + 2) porthSovereignPort).mp h)]
      exact .reject fun h => hport h.2

private theorem matchUdp_decides (key : UInt32) (p : Packet) :
    Decides key ((matchUdp key p.len).run p.bytes)
      (34 ≤ p.len ∧ p.bytes 23 = 17 ∧ p.udp + 8 ≤ p.len ∧ p.word (p.udp + 2) = 12345) := by
  unfold matchUdp
  by_cases hfixed : p.len < 34
  · rw [if_pos (show _ < ethLen + ipLen from hfixed)]
    exact .reject (by omega)
  · rw [if_neg (show ¬_ < ethLen + ipLen from hfixed), run_bind, run_byte]
    by_cases hprotocol : p.bytes 23 = 17
    · rw [if_neg (show ¬p.bytes (ethLen + 9) ≠ 17 from not_not.mpr hprotocol), run_bind,
        run_byte, ihlBytes_eq]
      refine (matchPort_decides key p p.udp).congr ⟨fun h => ?_, fun h => h.2.2⟩
      exact ⟨by omega, hprotocol, h⟩
    · rw [if_pos (show p.bytes (ethLen + 9) ≠ 17 from hprotocol)]
      exact .reject fun h => hprotocol h.2.1

theorem porthXdpProg_decides (key : UInt32) (p : Packet) :
    Decides key ((porthXdpProg key p.len).run p.bytes) p.Accepted := by
  unfold porthXdpProg
  by_cases hether : p.len < 14
  · rw [if_pos (show _ < ethLen from hether)]
    refine .reject fun h => ?_
    have hfixed := h.fixed
    omega
  · rw [if_neg (show ¬_ < ethLen from hether), run_bind, run_be16]
    by_cases htype : p.word 12 = 0x0800
    · rw [if_neg (not_not.mpr ((joinBytes_eq_iff p 12 0x0800).mpr htype))]
      refine (matchUdp_decides key p).congr ⟨?_, ?_⟩
      · rintro ⟨hfixed, hprotocol, hinside, hport⟩
        exact ⟨hfixed, htype, hprotocol, hinside, hport⟩
      · intro h
        exact ⟨h.fixed, h.protocol, h.inside, h.port⟩
    · rw [if_pos fun h => htype ((joinBytes_eq_iff p 12 0x0800).mp h)]
      exact .reject fun h => htype h.etherType

/-! ## What the program reads -/

private theorem within_matchPort (key : UInt32) (bytes : Nat → UInt8) (len udp : Nat) :
    Within len bytes (matchPort key len udp) := by
  unfold matchPort udpLen
  by_cases hinside : len < udp + 8
  · rw [if_pos hinside]
    exact within_pure _ _
  · rw [if_neg hinside]
    refine within_bind.mpr ⟨within_be16.mpr (by omega), ?_⟩
    split
    · exact within_pure _ _
    · exact within_pure _ _

private theorem within_matchUdp (key : UInt32) (bytes : Nat → UInt8) (len : Nat) :
    Within len bytes (matchUdp key len) := by
  unfold matchUdp
  by_cases hfixed : len < 34
  · rw [if_pos (show _ < ethLen + ipLen from hfixed)]
    exact within_pure _ _
  · rw [if_neg (show ¬_ < ethLen + ipLen from hfixed)]
    refine within_bind.mpr ⟨within_byte.mpr (show 23 < len by omega), ?_⟩
    split
    · exact within_pure _ _
    · refine within_bind.mpr ⟨within_byte.mpr (show 14 < len by omega), ?_⟩
      exact within_matchPort _ _ _ _

/-- Every read is covered by a bounds check, whatever the header length says. -/
theorem within_porthXdpProg (key : UInt32) (bytes : Nat → UInt8) (len : Nat) :
    Within len bytes (porthXdpProg key len) := by
  unfold porthXdpProg
  by_cases hether : len < 14
  · rw [if_pos (show _ < ethLen from hether)]
    exact within_pure _ _
  · rw [if_neg (show ¬_ < ethLen from hether)]
    refine within_bind.mpr ⟨within_be16.mpr (show 13 < len by omega), ?_⟩
    split
    · exact within_pure _ _
    · exact within_matchUdp _ _ _

/-! ## Exactness -/

/-- The filter reads inside the packet, redirects it if it is sovereign, and
passes it otherwise. -/
structure ExactOn (key : UInt32) (p : Packet) : Prop where
  safe : ∀ i ∈ (porthXdpProg key p.len).reads p.bytes, i < p.len
  redirect : (porthXdpProg key p.len).run p.bytes = .redirectMap key ↔ p.Sovereign
  pass : ¬p.Sovereign → (porthXdpProg key p.len).run p.bytes = .pass

/-- **The filter is exact but for short headers.**  For every packet of any
length, all reads are inside it; and the filter redirects exactly the
sovereign packets, and passes the others, if and only if the packet is not one
with a header of fewer than 5 words that looks like a sovereign one. -/
theorem exact_iff_no_shortHeader (key : UInt32) (p : Packet) :
    ExactOn key p ↔ ¬p.ShortHeader := by
  have hdecides := porthXdpProg_decides key p
  constructor
  · intro h hshort
    have hredirect := hdecides.redirect (p.accepted_iff.mpr (.inr hshort))
    exact p.not_sovereign_of_shortHeader hshort (h.redirect.mp hredirect)
  · intro hlong
    have hsov : p.Accepted ↔ p.Sovereign := by
      rw [p.accepted_iff, or_iff_left hlong]
    have hexact := hdecides.congr hsov
    exact
      { safe := within_porthXdpProg key p.bytes p.len
        redirect := hexact.iff
        pass := hexact.pass }

/-- 34 bytes: an IPv4 header with `ihl = 0` whose total length field, bytes 16
and 17, is 12345. -/
def crafted : Packet where
  bytes := fun i =>
    if i = 12 then 0x08 else if i = 16 then 0x30 else if i = 17 then 0x39
    else if i = 23 then 17 else 0
  len := 34

/-- A packet that is not even long enough for a UDP header is redirected. -/
theorem crafted_redirected :
    (porthXdpProg 0 crafted.len).run crafted.bytes = .redirectMap 0 ∧ ¬crafted.Sovereign := by
  constructor
  · rfl
  · intro h
    exact absurd h.ihl (by decide)

end PorthCore.Ports.XdpFilter
