import CatOs.Net.Tcp.Options

/-! Received frames: the Ethernet and IPv4 dispatch, and the datagrams handed on or queued. -/

namespace CatOs.Net

open Tcp (be16 be16Bytes be32Bytes)

def udpSlots : Nat := 8

def udpRxbuf : Nat := 2048

def le32 (bytes : List UInt8) : Word :=
  (bytes.getD 3 0).toBitVec ++ (bytes.getD 2 0).toBitVec ++ (bytes.getD 1 0).toBitVec ++
    (bytes.getD 0 0).toBitVec

def le32Bytes (value : Word) : List UInt8 :=
  (be32Bytes value).reverse

def addCarry (sum : Word) : Word := (sum >>> 16) + (sum &&& 0xffff)

def foldCarry (sum : Word) : Word × Bool :=
  if sum >>> 16 = 0 then (sum, false) else (addCarry sum, true)

def ipChecksum (b : Buffer UInt8) (len : Nat) : Half :=
  let pairs := forRange (len / 2) (fun i sum => sum + (be16 (b.read (2 * i) 2)).zeroExtend 32) 0
  -- An odd last byte counts as the high half of a pair.
  let sum : Word :=
    if len % 2 = 1 then pairs + (be16 [b (len - 1), 0]).zeroExtend 32 else pairs
  ~~~((doWhile foldCarry 3 sum).truncate 16)

theorem addCarry_toNat (sum : Word) :
    (addCarry sum).toNat = sum.toNat / 65536 + sum.toNat % 65536 := by
  have low : sum.toNat &&& 65535 = sum.toNat % 65536 :=
    Nat.and_two_pow_sub_one_eq_mod sum.toNat 16
  have bound := sum.isLt
  rw [addCarry, BitVec.toNat_add, BitVec.toNat_ushiftRight, BitVec.toNat_and,
    Nat.shiftRight_eq_div_pow]
  simp only [BitVec.ofNat_eq_ofNat, BitVec.toNat_ofNat, Nat.reducePow, Nat.reduceMod, low]
  omega

theorem shiftRight_eq_zero_iff (sum : Word) : sum >>> 16 = 0 ↔ sum.toNat < 65536 := by
  rw [← BitVec.toNat_inj, BitVec.toNat_ushiftRight, Nat.shiftRight_eq_div_pow]
  simp only [BitVec.ofNat_eq_ofNat, BitVec.toNat_ofNat]
  omega

theorem foldCarry_settles (sum : Word) : doWhile foldCarry 3 sum >>> 16 = 0 := by
  -- The first pass leaves at most one carry, and the second none.
  have bound := sum.isLt
  have once := addCarry_toNat sum
  have settled : (addCarry (addCarry sum)).toNat < 65536 := by
    rw [addCarry_toNat]
    omega
  simp only [doWhile, foldCarry, shiftRight_eq_zero_iff, apply_ite Prod.fst, apply_ite Prod.snd]
  split_ifs <;> first | contradiction | assumption

structure IpHdr where
  verIhl : UInt8
  totLen : Half
  flagsFrag : Half
  proto : UInt8
  src : Word
  dst : Word

def ipHdr (p : Buffer UInt8) : IpHdr where
  verIhl := p 0
  totLen := be16 (p.read 2 2)
  flagsFrag := be16 (p.read 6 2)
  proto := p 9
  src := le32 (p.read 12 4)
  dst := le32 (p.read 16 4)

inductive IpProto where
  | icmp
  | udp
  | tcp
  deriving DecidableEq, Repr

def ipProto (proto : UInt8) : Option IpProto :=
  if proto = 1 then some .icmp
  else if proto = 17 then some .udp
  else if proto = 6 then some .tcp
  else none

structure SegCall where
  proto : IpProto
  seg : Nat
  seglen : Word
  srcIp : Word
  deriving DecidableEq, Repr

inductive IpVerdict where
  | dropped
  | badChecksum
  | passed (call : SegCall)
  deriving DecidableEq, Repr

def ipHandle (gIp : Word) (p : Buffer UInt8) (len : Word) : IpVerdict :=
  if len < 20 then .dropped
  else if ipChecksum p 20 ≠ 0 then .badChecksum
  else
    let h := ipHdr p
    if h.dst ≠ gIp ∧ h.dst ≠ 0xFFFFFFFF then .dropped
    else
      let totLen : Word := h.totLen.zeroExtend 32
      let plen := if totLen > len then len else totLen
      -- The segment always starts after twenty bytes, and its length wraps below zero.
      match ipProto h.proto with
      | some proto => .passed { proto := proto, seg := 20, seglen := plen - 20, srcIp := h.src }
      | none => .dropped

structure UdpSock where
  used : Bool
  bound : Bool
  owned : Bool
  lport : Half
  rxb : Buffer UInt8
  head : Word
  n : Word

abbrev UdpSocks := Fin udpSlots → UdpSock

def udpSockByPort (socks : UdpSocks) (port : Half) : Option (Fin udpSlots) :=
  (List.finRange udpSlots).find? fun i =>
    (socks i).used && (socks i).bound && (socks i).lport == port

inductive UdpSink where
  | dhcp
  | echo (dst : Word) (port : Half)
  | queue (slot : Fin udpSlots)
  deriving DecidableEq, Repr

structure DataCall where
  sink : UdpSink
  data : Nat
  dlen : Word
  deriving DecidableEq, Repr

def UdpSock.hasRoom (s : UdpSock) (dlen : Word) : Bool :=
  s.n + 4 + 4 + 2 + dlen ≤ BitVec.ofNat 32 udpRxbuf

/--
Append a datagram to the queue of a socket, behind its length, source and port.

Positions at or past the capacity stand for the storage behind the queue.
-/
def UdpSock.enqueue (s : UdpSock) (srcIp : Word) (sport : Half) (data : List UInt8)
    (dlen : Word) : UdpSock :=
  { s with
    rxb := s.rxb.write s.head.toNat
      (be32Bytes dlen ++ le32Bytes srcIp ++ be16Bytes sport ++ data)
    head := s.head + (4 + 4 + 2 + dlen)
    n := s.n + (4 + 4 + 2 + dlen) }

structure NetStats where
  ipCsumErr : Word
  udpNoListener : Word
  rxDropFull : Word
  deriving DecidableEq, Repr

structure NetRx where
  gIp : Word
  socks : UdpSocks
  stats : NetStats

def NetRx.setSock (net : NetRx) (slot : Fin udpSlots) (s : UdpSock) : NetRx :=
  { net with socks := Function.update net.socks slot s }

def udpDataLen (seg : Buffer UInt8) (seglen : Word) : Word :=
  let len : Word := (be16 (seg.read 4 2)).zeroExtend 32
  (if len > seglen then seglen else len) - 8

def udpHandle (net : NetRx) (seg : Buffer UInt8) (seglen srcIp : Word) :
    NetRx × List DataCall :=
  if seglen < 8 then (net, [])
  else
    let dport := be16 (seg.read 2 2)
    let sport := be16 (seg.read 0 2)
    let dlen := udpDataLen seg seglen
    if dport = 68 ∧ sport = 67 then (net, [{ sink := .dhcp, data := 8, dlen := dlen }])
    else
      match udpSockByPort net.socks dport with
      | none =>
        ({ net with stats := { net.stats with udpNoListener := net.stats.udpNoListener + 1 } }, [])
      | some slot =>
        let echoed : List DataCall :=
          if dport = 7 then [{ sink := .echo srcIp sport, data := 8, dlen := dlen }] else []
        if (net.socks slot).hasRoom dlen then
          (net.setSock slot
            ((net.socks slot).enqueue srcIp sport (seg.read 8 dlen.toNat) dlen),
            echoed ++ [{ sink := .queue slot, data := 8, dlen := dlen }])
        else
          ({ net with stats := { net.stats with rxDropFull := net.stats.rxDropFull + 1 } }, echoed)

structure FrameTrace where
  arp : Option Word
  segs : List SegCall
  datas : List DataCall

def framePacket (p : Buffer UInt8) : Buffer UInt8 := fun i => p (14 + i)

def packetSegment (p : Buffer UInt8) (seg : Nat) : Buffer UInt8 := fun i => p (seg + i)

def passSegment (net : NetRx) (packet : Buffer UInt8) (call : SegCall) : NetRx × FrameTrace :=
  match call.proto with
  | .udp =>
    let (after, datas) := udpHandle net (packetSegment packet call.seg) call.seglen call.srcIp
    (after, { arp := none, segs := [call], datas := datas })
  | .icmp | .tcp => (net, { arp := none, segs := [call], datas := [] })

def netHandlePacket (net : NetRx) (p : Buffer UInt8) (len : Word) : NetRx × FrameTrace :=
  if len < 14 then (net, ⟨none, [], []⟩)
  else
    let type := be16 (p.read 12 2)
    if type = 0x0806 then (net, ⟨some len, [], []⟩)
    else if type = 0x0800 then
      match ipHandle net.gIp (framePacket p) (len - 14) with
      | .dropped => (net, ⟨none, [], []⟩)
      | .badChecksum =>
        ({ net with stats := { net.stats with ipCsumErr := net.stats.ipCsumErr + 1 } },
          ⟨none, [], []⟩)
      | .passed call => passSegment net (framePacket p) call
    else (net, ⟨none, [], []⟩)

end CatOs.Net
