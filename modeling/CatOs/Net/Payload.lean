import CatOs.Net.Demux

/-! Which received frames make the handlers see only their own payload. -/

namespace CatOs.Net

open Tcp (be16)

def IpHdr.version (h : IpHdr) : Nat := h.verIhl.toNat / 16

def IpHdr.headerLen (h : IpHdr) : Nat := h.verIhl.toNat % 16 * 4

def IpHdr.Fragment (h : IpHdr) : Prop := h.flagsFrag &&& 0x3fff ≠ 0

def udpLen (seg : Buffer UInt8) : Nat := (be16 (seg.read 4 2)).toNat

structure SegCall.Real (call : SegCall) (p : Buffer UInt8) (len : Word) : Prop where
  version : (ipHdr p).version = 4
  minimal : 20 ≤ (ipHdr p).headerLen
  covers : (ipHdr p).headerLen ≤ (ipHdr p).totLen.toNat
  fits : (ipHdr p).totLen.toNat ≤ len.toNat
  whole : ¬(ipHdr p).Fragment
  payload : p.read call.seg call.seglen.toNat =
    p.read (ipHdr p).headerLen ((ipHdr p).totLen.toNat - (ipHdr p).headerLen)

structure DataCall.Real (call : DataCall) (seg : Buffer UInt8) (seglen : Word) : Prop where
  covers : 8 ≤ udpLen seg
  fits : udpLen seg ≤ seglen.toNat
  payload : seg.read call.data call.dlen.toNat = seg.read 8 (udpLen seg - 8)

def PassesOnlyPayload (net : NetRx) (p : Buffer UInt8) (len : Word) : Prop :=
  let trace := (netHandlePacket net p len).2
  ∀ call ∈ trace.segs, call.Real (framePacket p) (len - 14) ∧
    ∀ data ∈ trace.datas, data.Real (packetSegment (framePacket p) call.seg) call.seglen

structure HonestHeader (h : IpHdr) (len : Word) : Prop where
  version : h.version = 4
  plain : h.headerLen = 20
  covers : 20 ≤ h.totLen.toNat
  fits : h.totLen.toNat ≤ len.toNat
  whole : ¬h.Fragment

structure ReachesTransport (net : NetRx) (p : Buffer UInt8) (len : Word) : Prop where
  frame : ¬len < 14
  internet : be16 (p.read 12 2) = 0x0800
  packet : ¬len - 14 < 20
  checksum : ipChecksum (framePacket p) 20 = 0
  addressed : (ipHdr (framePacket p)).dst = net.gIp ∨ (ipHdr (framePacket p)).dst = 0xFFFFFFFF
  handled : (ipProto (ipHdr (framePacket p)).proto).isSome

structure ReachesSink (net : NetRx) (seg : Buffer UInt8) (seglen : Word) : Prop where
  header : ¬seglen < 8
  sink : (be16 (seg.read 2 2) = 68 ∧ be16 (seg.read 0 2) = 67) ∨
    ∃ slot, udpSockByPort net.socks (be16 (seg.read 2 2)) = some slot ∧
      (be16 (seg.read 2 2) = 7 ∨ (net.socks slot).hasRoom (udpDataLen seg seglen))

def HonestFrame (net : NetRx) (p : Buffer UInt8) (len : Word) : Prop :=
  let h := ipHdr (framePacket p)
  let seg := packetSegment (framePacket p) 20
  ReachesTransport net p len →
    HonestHeader h (len - 14) ∧
      (ipProto h.proto = some .udp → ReachesSink net seg (h.totLen.zeroExtend 32 - 20) →
        8 ≤ udpLen seg ∧ udpLen seg + 20 ≤ h.totLen.toNat)

def segLen (h : IpHdr) (len : Word) : Word :=
  (if h.totLen.zeroExtend 32 > len then len else h.totLen.zeroExtend 32) - 20

def segCall (proto : IpProto) (h : IpHdr) (len : Word) : SegCall :=
  { proto := proto, seg := 20, seglen := segLen h len, srcIp := h.src }

theorem toNat_zeroExtend (value : Half) : (value.zeroExtend 32 : Word).toNat = value.toNat := by
  have width := value.isLt
  rw [BitVec.toNat_setWidth, Nat.mod_eq_of_lt (by omega)]

theorem segLen_eq {h : IpHdr} {len : Word} (fits : h.totLen.toNat ≤ len.toNat) :
    segLen h len = h.totLen.zeroExtend 32 - 20 := by
  have below : ¬h.totLen.zeroExtend 32 > len := by
    rw [gt_iff_lt, BitVec.lt_def, toNat_zeroExtend]
    omega
  rw [segLen, if_neg below]

theorem segLen_toNat {h : IpHdr} {len : Word} (covers : 20 ≤ h.totLen.toNat)
    (fits : h.totLen.toNat ≤ len.toNat) : (segLen h len).toNat = h.totLen.toNat - 20 := by
  have header : (20 : Word) ≤ h.totLen.zeroExtend 32 := by
    rw [BitVec.le_def, toNat_zeroExtend]
    exact covers
  rw [segLen_eq fits, BitVec.toNat_sub_of_le header, toNat_zeroExtend]
  rfl

theorem segCall_real_iff (proto : IpProto) (p : Buffer UInt8) (len : Word) :
    (segCall proto (ipHdr p) len).Real p len ↔ HonestHeader (ipHdr p) len := by
  constructor
  · intro real
    -- The payload has the right length only when the header has no options.
    have lengths := congrArg List.length real.payload
    rw [Buffer.length_read, Buffer.length_read] at lengths
    change (segLen (ipHdr p) len).toNat = _ at lengths
    have covers := real.covers
    have minimal := real.minimal
    rw [segLen_toNat (by omega) real.fits] at lengths
    exact ⟨real.version, by omega, by omega, real.fits, real.whole⟩
  · intro honest
    have plain := honest.plain
    have covers := honest.covers
    refine ⟨honest.version, by omega, by omega, honest.fits, honest.whole, ?_⟩
    change p.read 20 (segLen (ipHdr p) len).toNat = _
    rw [plain, segLen_toNat covers honest.fits]

theorem ipHandle_eq_passed_iff (gIp : Word) (p : Buffer UInt8) (len : Word) (call : SegCall) :
    ipHandle gIp p len = .passed call ↔
      ¬len < 20 ∧ ipChecksum p 20 = 0 ∧ ((ipHdr p).dst = gIp ∨ (ipHdr p).dst = 0xFFFFFFFF) ∧
        ∃ proto, ipProto (ipHdr p).proto = some proto ∧ call = segCall proto (ipHdr p) len := by
  unfold ipHandle
  by_cases short : len < 20
  · rw [if_pos short]
    exact ⟨fun same => (by cases same), fun checks => absurd short checks.1⟩
  by_cases checksum : ipChecksum p 20 = 0
  swap
  · rw [if_neg short, if_pos checksum]
    exact ⟨fun same => (by cases same), fun checks => absurd checks.2.1 checksum⟩
  by_cases addressed : (ipHdr p).dst = gIp ∨ (ipHdr p).dst = 0xFFFFFFFF
  swap
  · rw [if_neg short, if_neg (not_not.mpr checksum), if_pos (not_or.mp addressed)]
    exact ⟨fun same => (by cases same), fun checks => absurd checks.2.2.1 addressed⟩
  rw [if_neg short, if_neg (not_not.mpr checksum),
    if_neg fun neither => addressed.elim neither.1 neither.2]
  cases known : ipProto (ipHdr p).proto with
  | none =>
    exact ⟨fun same => (by cases same), fun ⟨_, _, _, _, found, _⟩ => (by cases found)⟩
  | some proto =>
    constructor
    · intro passed
      exact ⟨short, checksum, addressed, proto, rfl, (IpVerdict.passed.inj passed).symm⟩
    · rintro ⟨_, _, _, other, found, rfl⟩
      cases found
      rfl

theorem udpHandle_data {net : NetRx} {seg : Buffer UInt8} {seglen srcIp : Word} {data : DataCall}
    (member : data ∈ (udpHandle net seg seglen srcIp).2) :
    data.data = 8 ∧ data.dlen = udpDataLen seg seglen := by
  unfold udpHandle at member
  by_cases short : seglen < 8
  · rw [if_pos short] at member
    cases member
  rw [if_neg short] at member
  by_cases dhcp : be16 (seg.read 2 2) = 68 ∧ be16 (seg.read 0 2) = 67
  · simp only [if_pos dhcp, List.mem_singleton] at member
    exact ⟨congrArg DataCall.data member, congrArg DataCall.dlen member⟩
  simp only [if_neg dhcp] at member
  cases listener : udpSockByPort net.socks (be16 (seg.read 2 2)) with
  | none =>
    simp only [listener] at member
    cases member
  | some slot =>
    -- The echo and the queue are given the same data, whichever of them takes it.
    by_cases echo : be16 (seg.read 2 2) = 7 <;>
      by_cases room : (net.socks slot).hasRoom (udpDataLen seg seglen) = true <;>
      simp [listener, echo, room] at member
    all_goals grind

theorem udpHandle_reaches_iff (net : NetRx) (seg : Buffer UInt8) (seglen srcIp : Word) :
    (udpHandle net seg seglen srcIp).2 ≠ [] ↔ ReachesSink net seg seglen := by
  unfold udpHandle
  by_cases short : seglen < 8
  · rw [if_pos short]
    exact ⟨fun some_ => absurd rfl some_, fun reaches => absurd short reaches.header⟩
  rw [if_neg short]
  by_cases dhcp : be16 (seg.read 2 2) = 68 ∧ be16 (seg.read 0 2) = 67
  · simp only [if_pos dhcp]
    exact ⟨fun _ => ⟨short, .inl dhcp⟩, fun _ => List.cons_ne_nil _ _⟩
  simp only [if_neg dhcp]
  cases listener : udpSockByPort net.socks (be16 (seg.read 2 2)) with
  | none =>
    refine ⟨fun some_ => absurd rfl some_, fun reaches => ?_⟩
    rcases reaches.sink with ports | ⟨slot, found, _⟩
    · exact absurd ports dhcp
    · cases listener.symm.trans found
  | some slot =>
    have sink_iff : ReachesSink net seg seglen ↔ be16 (seg.read 2 2) = 7 ∨
        (net.socks slot).hasRoom (udpDataLen seg seglen) = true := by
      refine ⟨fun reaches => ?_, fun sink => ⟨short, .inr ⟨slot, listener, sink⟩⟩⟩
      rcases reaches.sink with ports | ⟨other, found, sink⟩
      · exact absurd ports dhcp
      · cases listener.symm.trans found
        exact sink
    rw [sink_iff]
    by_cases echo : be16 (seg.read 2 2) = 7 <;>
      by_cases room : (net.socks slot).hasRoom (udpDataLen seg seglen) = true <;>
      simp [echo, room]

theorem udpDataLen_toNat {seg : Buffer UInt8} {seglen : Word} (covers : 8 ≤ udpLen seg)
    (fits : udpLen seg ≤ seglen.toNat) : (udpDataLen seg seglen).toNat = udpLen seg - 8 := by
  have stated : ((be16 (seg.read 4 2)).zeroExtend 32 : Word).toNat = udpLen seg :=
    toNat_zeroExtend _
  have below : ¬(be16 (seg.read 4 2)).zeroExtend 32 > seglen := by
    rw [gt_iff_lt, BitVec.lt_def, stated]
    omega
  have header : (8 : Word) ≤ (be16 (seg.read 4 2)).zeroExtend 32 := by
    rw [BitVec.le_def, stated]
    exact covers
  rw [udpDataLen, if_neg below, BitVec.toNat_sub_of_le header, stated]
  rfl

theorem dataCall_real_iff (sink : UdpSink) (seg : Buffer UInt8) {seglen : Word} :
    (DataCall.mk sink 8 (udpDataLen seg seglen)).Real seg seglen ↔
      8 ≤ udpLen seg ∧ udpLen seg ≤ seglen.toNat := by
  refine ⟨fun real => ⟨real.covers, real.fits⟩, fun ⟨covers, fits⟩ => ⟨covers, fits, ?_⟩⟩
  rw [udpDataLen_toNat covers fits]

theorem netHandlePacket_of_reaches {net : NetRx} {p : Buffer UInt8} {len : Word}
    (reaches : ReachesTransport net p len) :
    ∃ proto, ipProto (ipHdr (framePacket p)).proto = some proto ∧
      netHandlePacket net p len = passSegment net (framePacket p)
        (segCall proto (ipHdr (framePacket p)) (len - 14)) := by
  obtain ⟨proto, known⟩ := Option.isSome_iff_exists.mp reaches.handled
  refine ⟨proto, known, ?_⟩
  have passed := (ipHandle_eq_passed_iff net.gIp (framePacket p) (len - 14) _).mpr
    ⟨reaches.packet, reaches.checksum, reaches.addressed, proto, known, rfl⟩
  have internet : ¬be16 (p.read 12 2) = 0x0806 := by
    rw [reaches.internet]
    decide
  unfold netHandlePacket
  rw [if_neg reaches.frame]
  simp only [if_neg internet, if_pos reaches.internet, passed]

theorem netHandlePacket_of_not_reaches {net : NetRx} {p : Buffer UInt8} {len : Word}
    (stopped : ¬ReachesTransport net p len) :
    (netHandlePacket net p len).2.segs = [] ∧ (netHandlePacket net p len).2.datas = [] := by
  unfold netHandlePacket
  by_cases frame : len < 14
  · simp only [if_pos frame, and_self]
  rw [if_neg frame]
  by_cases arp : be16 (p.read 12 2) = 0x0806
  · simp only [if_pos arp, and_self]
  by_cases internet : be16 (p.read 12 2) = 0x0800
  swap
  · simp only [if_neg arp, if_neg internet, and_self]
  simp only [if_neg arp, if_pos internet]
  cases verdict : ipHandle net.gIp (framePacket p) (len - 14) with
  | dropped | badChecksum => exact ⟨rfl, rfl⟩
  | passed call =>
    -- A packet that is passed on has met every check.
    obtain ⟨packet, checksum, addressed, proto, known, _⟩ :=
      (ipHandle_eq_passed_iff _ _ _ _).mp verdict
    exact absurd ⟨frame, internet, packet, checksum, addressed, by rw [known]; rfl⟩ stopped

theorem passSegment_segs (net : NetRx) (packet : Buffer UInt8) (call : SegCall) :
    (passSegment net packet call).2.segs = [call] := by
  cases proto : call.proto <;> simp [passSegment, proto]

theorem passSegment_datas (net : NetRx) (packet : Buffer UInt8) (call : SegCall) :
    (passSegment net packet call).2.datas = if call.proto = .udp then
      (udpHandle net (packetSegment packet call.seg) call.seglen call.srcIp).2 else [] := by
  cases proto : call.proto <;> simp [passSegment, proto]

theorem udpHandle_real_iff (net : NetRx) (seg : Buffer UInt8) (seglen srcIp : Word) :
    (∀ data ∈ (udpHandle net seg seglen srcIp).2, data.Real seg seglen) ↔
      (ReachesSink net seg seglen → 8 ≤ udpLen seg ∧ udpLen seg ≤ seglen.toNat) := by
  rw [← udpHandle_reaches_iff net seg seglen srcIp]
  constructor
  · intro real some_
    obtain ⟨data, member⟩ := List.exists_mem_of_ne_nil _ some_
    exact ⟨(real data member).covers, (real data member).fits⟩
  · intro honest data member
    obtain ⟨sink, start, dlen⟩ := data
    obtain ⟨rfl, rfl⟩ := udpHandle_data member
    exact (dataCall_real_iff sink seg).mpr (honest (List.ne_nil_of_mem member))

theorem udpDataLen_le {seg : Buffer UInt8} {seglen : Word} (covers : 8 ≤ udpLen seg)
    (fits : udpLen seg ≤ seglen.toNat) : (udpDataLen seg seglen).toNat ≤ seglen.toNat := by
  rw [udpDataLen_toNat covers fits]
  omega

theorem honest_datagram_iff {net : NetRx} {h : IpHdr} {len : Word} {seg : Buffer UInt8}
    (header : HonestHeader h len) :
    (ReachesSink net seg (h.totLen.zeroExtend 32 - 20) →
        8 ≤ udpLen seg ∧ udpLen seg + 20 ≤ h.totLen.toNat) ↔
      (ReachesSink net seg (segLen h len) → 8 ≤ udpLen seg ∧ udpLen seg ≤ (segLen h len).toNat) := by
  have covers := header.covers
  rw [segLen_toNat covers header.fits, segLen_eq header.fits]
  have same : udpLen seg + 20 ≤ h.totLen.toNat ↔ udpLen seg ≤ h.totLen.toNat - 20 := by omega
  rw [same]

theorem passesOnlyPayload_iff {net : NetRx} {p : Buffer UInt8} {len : Word}
    (reaches : ReachesTransport net p len) :
    PassesOnlyPayload net p len ↔ HonestFrame net p len := by
  obtain ⟨proto, known, handled⟩ := netHandlePacket_of_reaches reaches
  simp only [PassesOnlyPayload, HonestFrame, handled, passSegment_segs, passSegment_datas,
    List.mem_singleton, forall_eq, segCall_real_iff, reaches, known, Option.some.injEq,
    true_implies]
  apply and_congr_right
  intro header
  rw [honest_datagram_iff header]
  -- Only the datagram protocol hands data on.
  cases proto with
  | udp =>
    simp only [segCall, if_true, true_implies]
    exact udpHandle_real_iff net _ _ _
  | icmp | tcp => simp [segCall]

/--
Handlers see only payload of a frame exactly when the lengths that it states agree.

No handler is then given a length larger than the frame.
-/
theorem frame_passes_payload_iff (net : NetRx) (p : Buffer UInt8) (len : Word) :
    (PassesOnlyPayload net p len ↔ HonestFrame net p len) ∧
      (HonestFrame net p len →
        (∀ call ∈ (netHandlePacket net p len).2.segs, call.seglen.toNat ≤ len.toNat) ∧
          ∀ data ∈ (netHandlePacket net p len).2.datas, data.dlen.toNat ≤ len.toNat) := by
  by_cases reaches : ReachesTransport net p len
  swap
  · -- A frame that is stopped on the way calls nothing at all.
    obtain ⟨segs, datas⟩ := netHandlePacket_of_not_reaches reaches
    simp [PassesOnlyPayload, HonestFrame, segs, datas, reaches]
  refine ⟨passesOnlyPayload_iff reaches, fun honest => ?_⟩
  obtain ⟨proto, known, handled⟩ := netHandlePacket_of_reaches reaches
  obtain ⟨header, datagram⟩ := honest reaches
  have packet : (len - 14).toNat ≤ len.toNat := by
    have frame : (14 : Word) ≤ len := BitVec.not_lt.mp reaches.frame
    rw [BitVec.toNat_sub_of_le frame]
    exact Nat.sub_le _ _
  have fits := header.fits
  have seglen := segLen_toNat header.covers header.fits
  rw [handled, passSegment_segs, passSegment_datas]
  constructor
  · intro call member
    cases List.mem_singleton.mp member
    change (segLen _ _).toNat ≤ _
    omega
  · intro data member
    cases proto with
    | icmp | tcp => cases member
    | udp =>
      simp only [segCall, if_true] at member
      obtain ⟨covers, inside⟩ := (honest_datagram_iff header).mp (datagram known)
        ((udpHandle_reaches_iff _ _ _ _).mp (List.ne_nil_of_mem member))
      have short := udpDataLen_le covers inside
      rw [(udpHandle_data member).2]
      omega

def firstSlot : Fin udpSlots := ⟨0, Nat.zero_lt_succ 7⟩

def discardNet : NetRx where
  gIp := 0
  socks := fun i =>
    { used := i == firstSlot, bound := true, owned := true, lport := 9,
      rxb := fun _ => 0, head := 0, n := 0 }
  stats := { ipCsumErr := 0, udpNoListener := 0, rxDropFull := 0 }

def frameBytes (bytes : List UInt8) : Buffer UInt8 := fun i => bytes.getD i 0

def emptyPacket : Buffer UInt8 :=
  frameBytes [0, 0, 0, 0, 0, 0, 0, 0, 0, 0, 0, 0, 0x08, 0x00,
    0x45, 0, 0, 0, 0, 0, 0, 0, 64, 6, 0x7A, 0xF9, 0, 0, 0, 0, 255, 255, 255, 255]

def emptyDatagram : Buffer UInt8 :=
  frameBytes [0, 0, 0, 0, 0, 0, 0, 0, 0, 0, 0, 0, 0x08, 0x00,
    0x45, 0, 0, 28, 0, 0, 0, 0, 64, 17, 0x7A, 0xD2, 0, 0, 0, 0, 255, 255, 255, 255,
    0, 1, 0, 9, 0, 0, 0, 0]

/-- Stated lengths of zero wrap: a handler is given, and a queue takes, almost the whole memory. -/
theorem stated_zero_lengths_wrap :
    ((netHandlePacket discardNet emptyPacket 34).2.segs = [⟨.tcp, 20, 0xFFFFFFEC, 0⟩] ∧
        ¬PassesOnlyPayload discardNet emptyPacket 34) ∧
      (netHandlePacket discardNet emptyDatagram 42).2.datas = [⟨.queue firstSlot, 8, 0xFFFFFFF8⟩] ∧
        ¬PassesOnlyPayload discardNet emptyDatagram 42 := by
  have packet : (netHandlePacket discardNet emptyPacket 34).2.segs =
      [⟨.tcp, 20, 0xFFFFFFEC, 0⟩] := by decide
  have segment : (netHandlePacket discardNet emptyDatagram 42).2.segs = [⟨.udp, 20, 8, 0⟩] := by
    decide
  have datagram : (netHandlePacket discardNet emptyDatagram 42).2.datas =
      [⟨.queue firstSlot, 8, 0xFFFFFFF8⟩] := by decide
  refine ⟨⟨packet, fun passes => ?_⟩, datagram, fun passes => ?_⟩
  · -- A real segment would need a total length that covers its header.
    have real := (passes _ (packet ▸ List.mem_singleton_self _)).1
    have stated : (ipHdr (framePacket emptyPacket)).totLen.toNat = 0 := by decide
    have covers := real.covers
    have minimal := real.minimal
    omega
  · have real := (passes _ (segment ▸ List.mem_singleton_self _)).2 _
      (datagram ▸ List.mem_singleton_self _)
    have stated : udpLen (packetSegment (framePacket emptyDatagram) 20) = 0 := by decide
    have covers : 8 ≤ udpLen (packetSegment (framePacket emptyDatagram) 20) := real.covers
    omega

end CatOs.Net
