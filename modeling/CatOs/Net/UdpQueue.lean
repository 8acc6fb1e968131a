import CatOs.Lib.Simulation
import CatOs.Net.Handles
import CatOs.Net.Payload

/-! The queue of a datagram socket: records in one buffer, and the list of datagrams they are. -/

namespace CatOs.Net

open Tcp (be16 be32 be16Bytes be32Bytes be16_be16Bytes be32_be32Bytes)
open Function

structure UdpRecv where
  socks : UdpSocks
  ret : Int
  srcIp : Option Word
  srcPort : Option Half
  buf : List UInt8
  /-- The runs of the queue's storage that were read or written. -/
  touched : List (Nat × Nat)

def UdpRecv.failed (socks : UdpSocks) : UdpRecv :=
  { socks := socks, ret := -1, srcIp := none, srcPort := none, buf := [], touched := [] }

def udpHandleSlot (byPort : Half → Option (Fin udpSlots)) (s : UdpHandle) :
    Option (Fin udpSlots) :=
  -- The type of the number holds the test that it lies in the table.
  if s.owned then some s.slot else byPort s.lport

def UdpSock.dequeue (u : UdpSock) (total : Word) : UdpSock :=
  let n := u.n - total
  { u with
    n := n
    rxb := if n > 0 then u.rxb.copyWithin 0 total.toNat n.toNat else u.rxb
    head := n }

def udpRecvfrom (socks : UdpSocks) (s : Option UdpHandle) (wantIp wantPort : Bool)
    (maxLen : Word) : UdpRecv :=
  match s with
  | none => .failed socks
  | some s =>
    if s.type ≠ .udp then .failed socks
    else
      match udpHandleSlot (udpSockByPort socks) s with
      | none => .failed socks
      | some slot =>
        let u := socks slot
        if u.n = 0 then .failed socks
        else
          let dlen := be32 (u.rxb.read 0 4)
          -- The length of the record is taken before the data is cut to the buffer.
          let total := 4 + 4 + 2 + dlen
          let copied := if dlen > maxLen then maxLen else dlen
          { socks := update socks slot (u.dequeue total)
            ret := copied.toInt
            srcIp := if wantIp then some (le32 (u.rxb.read 4 4)) else none
            srcPort := if wantPort then some (be16 (u.rxb.read 8 2)) else none
            buf := u.rxb.read 10 copied.toNat
            touched := [(0, 4), (4, 4), (8, 2), (10, copied.toNat)] ++
              if u.n - total > 0 then
                [(total.toNat, (u.n - total).toNat), (0, (u.n - total).toNat)]
              else [] }

inductive UdpEvent where
  | arrive (seg : Buffer UInt8) (seglen srcIp : Word)
  | receive (s : Option UdpHandle) (wantIp wantPort : Bool) (maxLen : Word)

inductive UdpOut where
  | queued (slots : List (Fin udpSlots))
  | received (ret : Int) (srcIp : Option Word) (srcPort : Option Half) (buf : List UInt8)
  deriving DecidableEq

def queuedAt (calls : List DataCall) : List (Fin udpSlots) :=
  calls.filterMap fun call =>
    match call.sink with
    | .queue slot => some slot
    | _ => none

def udpStep (event : UdpEvent) (net : NetRx) : NetRx × UdpOut :=
  match event with
  | .arrive seg seglen srcIp =>
    ((udpHandle net seg seglen srcIp).1, .queued (queuedAt (udpHandle net seg seglen srcIp).2))
  | .receive s wantIp wantPort maxLen =>
    let r := udpRecvfrom net.socks s wantIp wantPort maxLen
    ({ net with socks := r.socks }, .received r.ret r.srcIp r.srcPort r.buf)

def udpTouched (event : UdpEvent) (net : NetRx) : List (Nat × Nat) :=
  match event with
  | .arrive seg seglen srcIp =>
    (queuedAt (udpHandle net seg seglen srcIp).2).map fun slot =>
      ((net.socks slot).head.toNat, 4 + 4 + 2 + (udpDataLen seg seglen).toNat)
  | .receive s wantIp wantPort maxLen => (udpRecvfrom net.socks s wantIp wantPort maxLen).touched

def UdpAllowed (event : UdpEvent) (net : NetRx) : Prop :=
  match event with
  | .arrive seg seglen _ =>
    be16 (seg.read 2 2) ≠ 7 ∧ be16 (seg.read 2 2) ≠ 68 ∧
      (udpSockByPort net.socks (be16 (seg.read 2 2))).isSome = true ∧
      8 ≤ udpLen seg ∧ udpLen seg ≤ seglen.toNat
  | .receive _ _ _ _ => True

structure Datagram where
  srcIp : Word
  sport : Half
  payload : List UInt8
  deriving DecidableEq, Repr

def segDatagram (seg : Buffer UInt8) (srcIp : Word) : Datagram :=
  { srcIp := srcIp, sport := be16 (seg.read 0 2), payload := seg.read 8 (udpLen seg - 8) }

def queueSize (q : List Datagram) : Nat := (q.map fun d => 10 + d.payload.length).sum

abbrev UdpQueues := Fin udpSlots → List Datagram

def udpSpec (byPort : Half → Option (Fin udpSlots)) (event : UdpEvent) (q : UdpQueues) :
    UdpQueues × UdpOut :=
  match event with
  | .arrive seg _ srcIp =>
    match byPort (be16 (seg.read 2 2)) with
    | none => (q, .queued [])
    | some slot =>
      let d := segDatagram seg srcIp
      if queueSize (q slot) + (10 + d.payload.length) ≤ udpRxbuf then
        (update q slot (q slot ++ [d]), .queued [slot])
      else (q, .queued [])
  | .receive s wantIp wantPort maxLen =>
    match (s.filter fun s => s.type = .udp).bind (udpHandleSlot byPort) with
    | none => (q, .received (-1) none none [])
    | some slot =>
      match q slot with
      | [] => (q, .received (-1) none none [])
      | d :: rest =>
        (update q slot rest, .received (min d.payload.length maxLen.toNat : Nat)
          (if wantIp then some d.srcIp else none) (if wantPort then some d.sport else none)
          (d.payload.take maxLen.toNat))

def udpRecord (d : Datagram) : List UInt8 :=
  be32Bytes (BitVec.ofNat 32 d.payload.length) ++ le32Bytes d.srcIp ++ be16Bytes d.sport ++
    d.payload

structure HoldsQueue (s : UdpSock) (q : List Datagram) : Prop where
  records : s.rxb.read 0 (queueSize q) = q.flatMap udpRecord
  count : s.n.toNat = queueSize q
  head : s.head = s.n
  fits : queueSize q ≤ udpRxbuf

theorem length_udpRecord (d : Datagram) : (udpRecord d).length = 10 + d.payload.length := by
  simp [udpRecord, be32Bytes, le32Bytes, be16Bytes]
  omega

theorem length_records (q : List Datagram) : (q.flatMap udpRecord).length = queueSize q := by
  simp only [List.length_flatMap, queueSize, length_udpRecord]

theorem queueSize_append (q : List Datagram) (d : Datagram) :
    queueSize (q ++ [d]) = queueSize q + (10 + d.payload.length) := by
  simp [queueSize]

theorem queueSize_cons (d : Datagram) (q : List Datagram) :
    queueSize (d :: q) = 10 + d.payload.length + queueSize q := by
  simp [queueSize]

theorem HoldsQueue.hasRoom_iff {s : UdpSock} {q : List Datagram} (holds : HoldsQueue s q)
    {dlen : Word} (short : dlen.toNat ≤ 65535) :
    s.hasRoom dlen = true ↔ queueSize q + (10 + dlen.toNat) ≤ udpRxbuf := by
  have count := holds.count
  have fits := holds.fits
  have four : (4 : Word).toNat = 4 := rfl
  have two : (2 : Word).toNat = 2 := rfl
  have cap : (BitVec.ofNat 32 udpRxbuf).toNat = udpRxbuf := rfl
  have small : udpRxbuf = 2048 := rfl
  rw [UdpSock.hasRoom, decide_eq_true_iff, BitVec.le_def, cap]
  simp only [BitVec.toNat_add, four, two]
  omega

theorem HoldsQueue.enqueue {s : UdpSock} {q : List Datagram} (holds : HoldsQueue s q)
    (d : Datagram) {dlen : Word} (length : d.payload.length = dlen.toNat)
    (room : queueSize q + (10 + d.payload.length) ≤ udpRxbuf) :
    HoldsQueue (s.enqueue d.srcIp d.sport d.payload dlen) (q ++ [d]) := by
  have count := holds.count
  have small : udpRxbuf = 2048 := rfl
  have bytes : be32Bytes dlen ++ le32Bytes d.srcIp ++ be16Bytes d.sport ++ d.payload =
      udpRecord d := by
    rw [udpRecord, length, BitVec.ofNat_toNat, BitVec.setWidth_eq]
  have ten : ((4 + 4 + 2 : Word) + dlen).toNat = 10 + dlen.toNat := by
    have head : (4 + 4 + 2 : Word).toNat = 10 := rfl
    rw [BitVec.toNat_add, head]
    omega
  refine ⟨?_, ?_, ?_, ?_⟩
  · have start : s.head.toNat = queueSize q := by rw [holds.head, count]
    rw [UdpSock.enqueue, bytes, start, queueSize_append, ← length_udpRecord d,
      Buffer.read_write_append, holds.records, List.flatMap_append, List.flatMap_singleton]
  · rw [UdpSock.enqueue, BitVec.toNat_add, ten, queueSize_append, count]
    omega
  · rw [UdpSock.enqueue, holds.head]
  · rw [queueSize_append]
    exact room

section HoldsQueue

variable {s : UdpSock} {d : Datagram} {q : List Datagram} (holds : HoldsQueue s (d :: q))
include holds

theorem HoldsQueue.first :
    s.rxb.read 0 (10 + d.payload.length) = udpRecord d ∧
      s.rxb.read (10 + d.payload.length) (queueSize q) = q.flatMap udpRecord := by
  have records := holds.records
  rw [queueSize_cons, Buffer.read_add, Nat.zero_add, List.flatMap_cons] at records
  exact List.append_inj records (by rw [Buffer.length_read, length_udpRecord])

theorem HoldsQueue.header :
    be32 (s.rxb.read 0 4) = BitVec.ofNat 32 d.payload.length ∧
      le32 (s.rxb.read 4 4) = d.srcIp ∧ be16 (s.rxb.read 8 2) = d.sport ∧
      s.rxb.read 10 d.payload.length = d.payload := by
  have record := holds.first.1
  -- The record is read in the order in which it was written.
  rw [show 10 + d.payload.length = 4 + 4 + 2 + d.payload.length by omega, udpRecord,
    Buffer.read_add, Buffer.read_add, Buffer.read_add] at record
  obtain ⟨front, payload⟩ := List.append_inj record (by
    simp [be32Bytes, le32Bytes, be16Bytes])
  obtain ⟨front, port⟩ := List.append_inj front (by simp [be32Bytes, le32Bytes])
  obtain ⟨length, source⟩ := List.append_inj front (by simp [be32Bytes])
  refine ⟨?_, ?_, ?_, payload⟩
  · rw [length]
    exact be32_be32Bytes _ []
  · rw [show (4 : Nat) = 0 + 4 by rfl, source]
    exact be32_be32Bytes _ []
  · rw [show (8 : Nat) = 0 + 4 + 4 by rfl, port]
    exact be16_be16Bytes _ []

theorem HoldsQueue.total :
    (4 + 4 + 2 + be32 (s.rxb.read 0 4)).toNat = 10 + d.payload.length ∧
      (s.n - (4 + 4 + 2 + be32 (s.rxb.read 0 4))).toNat = queueSize q := by
  have count := holds.count
  have fits := holds.fits
  have small : udpRxbuf = 2048 := rfl
  rw [queueSize_cons] at count fits
  have head : (4 + 4 + 2 : Word).toNat = 10 := rfl
  have total : (4 + 4 + 2 + be32 (s.rxb.read 0 4)).toNat = 10 + d.payload.length := by
    rw [holds.header.1, BitVec.toNat_add, head, BitVec.toNat_ofNat]
    omega
  refine ⟨total, ?_⟩
  rw [BitVec.toNat_sub, total]
  omega

theorem HoldsQueue.dequeue :
    HoldsQueue (s.dequeue (4 + 4 + 2 + be32 (s.rxb.read 0 4))) q := by
  obtain ⟨total, rest⟩ := holds.total
  have fits := holds.fits
  rw [queueSize_cons] at fits
  refine ⟨?_, rest, rfl, by omega⟩
  unfold UdpSock.dequeue
  dsimp only
  split
  · rw [total, rest, Buffer.read_copyWithin_front]
    exact holds.first.2
  · rename_i none
    -- Nothing is moved only if nothing is left.
    have empty : queueSize q = 0 := by
      have notPos : ¬0 < (s.n - (4 + 4 + 2 + be32 (s.rxb.read 0 4))).toNat := none
      omega
    have records : q.flatMap udpRecord = [] := by
      rw [← List.length_eq_zero_iff, length_records, empty]
    rw [empty, records, Buffer.read_zero]

end HoldsQueue

/-- Receiving from a queue that is not empty gives its first datagram, cut to the buffer. -/
theorem HoldsQueue.recvfrom {socks : UdpSocks} {slot : Fin udpSlots} {d : Datagram}
    {q : List Datagram} (holds : HoldsQueue (socks slot) (d :: q)) {s : UdpHandle}
    (udp : s.type = .udp) (found : udpHandleSlot (udpSockByPort socks) s = some slot)
    (wantIp wantPort : Bool) (maxLen : Word) :
    let r := udpRecvfrom socks (some s) wantIp wantPort maxLen
    r.socks = update socks slot
        ((socks slot).dequeue (4 + 4 + 2 + be32 ((socks slot).rxb.read 0 4))) ∧
      r.ret = (min d.payload.length maxLen.toNat : Nat) ∧
      r.srcIp = (if wantIp then some d.srcIp else none) ∧
      r.srcPort = (if wantPort then some d.sport else none) ∧
      r.buf = d.payload.take maxLen.toNat ∧
      ∀ run ∈ r.touched, run.1 + run.2 ≤ udpRxbuf := by
  obtain ⟨total, rest⟩ := holds.total
  obtain ⟨length, source, port, payload⟩ := holds.header
  have fits := holds.fits
  have count := holds.count
  have small : udpRxbuf = 2048 := rfl
  rw [queueSize_cons] at fits count
  have nonempty : (socks slot).n ≠ 0 := by
    intro zero
    have none : (0 : Word).toNat = 0 := rfl
    rw [zero, none] at count
    omega
  generalize copied :
    (if be32 ((socks slot).rxb.read 0 4) > maxLen then maxLen
      else be32 ((socks slot).rxb.read 0 4)) = cut
  have cutLen : cut.toNat = min d.payload.length maxLen.toNat := by
    have wide : (BitVec.ofNat 32 d.payload.length).toNat = d.payload.length := by
      rw [BitVec.toNat_ofNat]
      omega
    rw [← copied, length]
    split
    · rename_i larger
      have above : maxLen.toNat < (BitVec.ofNat 32 d.payload.length).toNat := larger
      omega
    · rename_i within
      have below : ¬maxLen.toNat < (BitVec.ofNat 32 d.payload.length).toNat := within
      omega
  unfold udpRecvfrom
  simp only [udp, ne_eq, not_true_eq_false, if_false, found, nonempty, copied, source, port]
  refine ⟨trivial, ?_, trivial, trivial, ?_, ?_⟩
  · rw [BitVec.toInt_eq_toNat_of_lt (by omega), cutLen]
  · rw [cutLen, ← Buffer.take_read _ _ (Nat.min_le_left _ _), payload, Nat.min_comm]
    exact List.take_eq_take_min.symm
  · intro run member
    rw [List.mem_append] at member
    rcases member with read | moved
    · simp only [List.mem_cons, List.not_mem_nil, or_false] at read
      rcases read with rfl | rfl | rfl | rfl <;> dsimp only <;> omega
    · split at moved
      · simp only [List.mem_cons, List.not_mem_nil, or_false] at moved
        rcases moved with rfl | rfl <;> dsimp only <;> omega
      · exact absurd moved List.not_mem_nil

theorem HoldsQueue.recvfrom_nil {socks : UdpSocks} {slot : Fin udpSlots}
    (holds : HoldsQueue (socks slot) []) {s : UdpHandle}
    (found : udpHandleSlot (udpSockByPort socks) s = some slot)
    (wantIp wantPort : Bool) (maxLen : Word) :
    udpRecvfrom socks (some s) wantIp wantPort maxLen = .failed socks := by
  have empty : (socks slot).n = 0 := BitVec.eq_of_toNat_eq holds.count
  unfold udpRecvfrom
  simp only [found, empty, if_true, ite_self]

theorem udpRecvfrom_none {socks : UdpSocks} {s : Option UdpHandle}
    (absent : (s.filter fun s => s.type = .udp).bind (udpHandleSlot (udpSockByPort socks)) = none)
    (wantIp wantPort : Bool) (maxLen : Word) :
    udpRecvfrom socks s wantIp wantPort maxLen = .failed socks := by
  cases s with
  | none => rfl
  | some s =>
    by_cases udp : s.type = .udp
    · simp only [Option.filter, udp, decide_true, if_true, Option.bind_some] at absent
      simp only [udpRecvfrom, udp, ne_eq, not_true_eq_false, if_false, absent]
    · simp only [udpRecvfrom, ne_eq, udp, not_false_eq_true, if_true]

theorem udpHandle_queue {net : NetRx} {seg : Buffer UInt8} {seglen srcIp : Word}
    (plain : be16 (seg.read 2 2) ≠ 7 ∧ be16 (seg.read 2 2) ≠ 68) (covers : 8 ≤ udpLen seg)
    (fits : udpLen seg ≤ seglen.toNat) {slot : Fin udpSlots}
    (found : udpSockByPort net.socks (be16 (seg.read 2 2)) = some slot) :
    udpHandle net seg seglen srcIp =
      if (net.socks slot).hasRoom (udpDataLen seg seglen) then
        (net.setSock slot ((net.socks slot).enqueue srcIp (segDatagram seg srcIp).sport
            (segDatagram seg srcIp).payload (udpDataLen seg seglen)),
          [{ sink := .queue slot, data := 8, dlen := udpDataLen seg seglen }])
      else
        ({ net with stats := { net.stats with rxDropFull := net.stats.rxDropFull + 1 } }, []) := by
  have long : ¬seglen < 8 := by
    change ¬seglen.toNat < 8
    omega
  have dhcp : ¬(be16 (seg.read 2 2) = 68 ∧ be16 (seg.read 0 2) = 67) := fun both => plain.2 both.1
  have data : seg.read 8 (udpDataLen seg seglen).toNat = (segDatagram seg srcIp).payload := by
    rw [udpDataLen_toNat covers fits]
    rfl
  unfold udpHandle
  simp only [if_neg long, if_neg dhcp, found, if_neg plain.1, data, List.nil_append]
  rfl

theorem udpSockByPort_update {socks : UdpSocks} {slot : Fin udpSlots} {s : UdpSock}
    (used : s.used = (socks slot).used) (bound : s.bound = (socks slot).bound)
    (lport : s.lport = (socks slot).lport) (port : Half) :
    udpSockByPort (update socks slot s) port = udpSockByPort socks port := by
  unfold udpSockByPort
  congr 1
  funext i
  rcases eq_or_ne i slot with rfl | other
  · rw [update_self, used, bound, lport]
  · rw [update_of_ne other]

structure UdpRelated (byPort : Half → Option (Fin udpSlots)) (net : NetRx) (q : UdpQueues) :
    Prop where
  holds : ∀ slot, HoldsQueue (net.socks slot) (q slot)
  ports : ∀ port, udpSockByPort net.socks port = byPort port

theorem UdpRelated.update {byPort : Half → Option (Fin udpSlots)} {net after : NetRx}
    {q : UdpQueues} (related : UdpRelated byPort net q) {slot : Fin udpSlots} {s : UdpSock}
    {list : List Datagram} (socks : after.socks = update net.socks slot s)
    (holds : HoldsQueue s list) (used : s.used = (net.socks slot).used)
    (bound : s.bound = (net.socks slot).bound) (lport : s.lport = (net.socks slot).lport) :
    UdpRelated byPort after (update q slot list) := by
  constructor
  · intro other
    rw [socks]
    rcases eq_or_ne other slot with rfl | different
    · rw [update_self, update_self]
      exact holds
    · rw [update_of_ne different, update_of_ne different]
      exact related.holds other
  · intro port
    rw [socks, udpSockByPort_update used bound lport]
    exact related.ports port

theorem UdpRelated.arrive {byPort : Half → Option (Fin udpSlots)} {net : NetRx} {q : UdpQueues}
    (related : UdpRelated byPort net q) {seg : Buffer UInt8} {seglen srcIp : Word}
    (allowed : UdpAllowed (.arrive seg seglen srcIp) net) :
    UdpRelated byPort (udpStep (.arrive seg seglen srcIp) net).1
        (udpSpec byPort (.arrive seg seglen srcIp) q).1 ∧
      (udpStep (.arrive seg seglen srcIp) net).2 =
        (udpSpec byPort (.arrive seg seglen srcIp) q).2 := by
  obtain ⟨echo, dhcp, bound, covers, fits⟩ := allowed
  obtain ⟨slot, found⟩ := Option.isSome_iff_exists.mp bound
  have dlen := udpDataLen_toNat covers fits
  have limit : udpLen seg ≤ 65535 := Nat.le_of_lt_succ (be16 (seg.read 4 2)).isLt
  have length : (segDatagram seg srcIp).payload.length = (udpDataLen seg seglen).toNat := by
    rw [dlen]
    exact Buffer.length_read _ _ _
  have room := (related.holds slot).hasRoom_iff
    (show (udpDataLen seg seglen).toNat ≤ 65535 by omega)
  rw [← length] at room
  have handled := @udpHandle_queue net seg seglen srcIp ⟨echo, dhcp⟩ covers fits slot found
  unfold udpStep udpSpec
  dsimp only
  rw [handled, ← related.ports, found]
  by_cases fitting : (net.socks slot).hasRoom (udpDataLen seg seglen) = true
  · rw [if_pos fitting]
    dsimp only
    rw [if_pos (room.mp fitting)]
    exact ⟨related.update rfl
      ((related.holds slot).enqueue (segDatagram seg srcIp) length (room.mp fitting)) rfl rfl rfl,
      rfl⟩
  · rw [if_neg fitting]
    dsimp only
    rw [if_neg (fun fits => fitting (room.mpr fits))]
    exact ⟨⟨related.holds, related.ports⟩, rfl⟩

theorem UdpRelated.receive {byPort : Half → Option (Fin udpSlots)} {net : NetRx} {q : UdpQueues}
    (related : UdpRelated byPort net q) (s : Option UdpHandle) (wantIp wantPort : Bool)
    (maxLen : Word) :
    UdpRelated byPort (udpStep (.receive s wantIp wantPort maxLen) net).1
        (udpSpec byPort (.receive s wantIp wantPort maxLen) q).1 ∧
      (udpStep (.receive s wantIp wantPort maxLen) net).2 =
        (udpSpec byPort (.receive s wantIp wantPort maxLen) q).2 := by
  have same : udpSockByPort net.socks = byPort := funext related.ports
  unfold udpStep udpSpec
  dsimp only
  rw [← same]
  cases target : (s.filter fun s => s.type = .udp).bind (udpHandleSlot (udpSockByPort net.socks))
    with
  | none =>
    rw [udpRecvfrom_none target]
    exact ⟨same ▸ related, rfl⟩
  | some slot =>
    obtain ⟨handle, chosen, found⟩ := Option.bind_eq_some_iff.mp target
    obtain ⟨rfl, udp⟩ := Option.filter_eq_some_iff.mp chosen
    have held := related.holds slot
    dsimp only
    cases list : q slot with
    | nil =>
      rw [list] at held
      rw [held.recvfrom_nil found]
      exact ⟨same ▸ related, rfl⟩
    | cons d rest =>
      rw [list] at held
      obtain ⟨socks, ret, srcIp, srcPort, buf, -⟩ :=
        held.recvfrom (of_decide_eq_true udp) found wantIp wantPort maxLen
      dsimp only
      rw [ret, srcIp, srcPort, buf]
      exact ⟨same ▸ related.update socks held.dequeue rfl rfl rfl, rfl⟩

theorem udpStep_simulates (byPort : Half → Option (Fin udpSlots)) :
    Simulates udpStep (udpSpec byPort) UdpAllowed (UdpRelated byPort) := by
  intro event net q allowed related
  cases event with
  | arrive seg seglen srcIp => exact related.arrive allowed
  | receive s wantIp wantPort maxLen => exact related.receive s wantIp wantPort maxLen

/-- No allowed event reads or writes outside the storage of a queue. -/
theorem UdpRelated.touched {byPort : Half → Option (Fin udpSlots)} {net : NetRx} {q : UdpQueues}
    (related : UdpRelated byPort net q) {event : UdpEvent} (allowed : UdpAllowed event net) :
    ∀ run ∈ udpTouched event net, run.1 + run.2 ≤ udpRxbuf := by
  cases event with
  | arrive seg seglen srcIp =>
    obtain ⟨echo, dhcp, bound, covers, fits⟩ := allowed
    obtain ⟨slot, found⟩ := Option.isSome_iff_exists.mp bound
    have limit : udpLen seg ≤ 65535 := Nat.le_of_lt_succ (be16 (seg.read 4 2)).isLt
    have dlen := udpDataLen_toNat covers fits
    have room := (related.holds slot).hasRoom_iff
      (show (udpDataLen seg seglen).toNat ≤ 65535 by omega)
    have start : (net.socks slot).head.toNat = queueSize (q slot) := by
      rw [(related.holds slot).head, (related.holds slot).count]
    intro run member
    unfold udpTouched at member
    dsimp only at member
    rw [udpHandle_queue ⟨echo, dhcp⟩ covers fits found] at member
    split at member
    · rename_i fitting
      have within := room.mp fitting
      obtain rfl := List.mem_singleton.mp member
      dsimp only
      omega
    · exact absurd member List.not_mem_nil
  | receive s wantIp wantPort maxLen =>
    intro run member
    unfold udpTouched at member
    dsimp only at member
    cases target : (s.filter fun s => s.type = .udp).bind
        (udpHandleSlot (udpSockByPort net.socks)) with
    | none =>
      rw [udpRecvfrom_none target] at member
      exact absurd member List.not_mem_nil
    | some slot =>
      obtain ⟨handle, chosen, found⟩ := Option.bind_eq_some_iff.mp target
      obtain ⟨rfl, udp⟩ := Option.filter_eq_some_iff.mp chosen
      have held := related.holds slot
      cases list : q slot with
      | nil =>
        rw [list] at held
        rw [held.recvfrom_nil found] at member
        exact absurd member List.not_mem_nil
      | cons d rest =>
        rw [list] at held
        exact (held.recvfrom (of_decide_eq_true udp) found wantIp wantPort maxLen).2.2.2.2.2 run
          member

/-- From empty queues on, the sockets behave as bounded lists and stay inside their storage. -/
theorem udp_queue_fifo (net : NetRx)
    (empty : ∀ slot, (net.socks slot).head = 0 ∧ (net.socks slot).n = 0)
    (events : List UdpEvent) (allowed : AllAllowed (nextState udpStep) UdpAllowed events net) :
    let byPort := udpSockByPort net.socks
    let after := runInputs (nextState udpStep) events net
    let queues := runInputs (nextState (udpSpec byPort)) events fun _ => []
    runOutputs udpStep events net = runOutputs (udpSpec byPort) events (fun _ => []) ∧
      (∀ slot, HoldsQueue (after.socks slot) (queues slot) ∧
        (after.socks slot).head = (after.socks slot).n ∧
        (after.socks slot).n.toNat ≤ udpRxbuf) ∧
      ∀ event, UdpAllowed event after →
        ∀ run ∈ udpTouched event after, run.1 + run.2 ≤ udpRxbuf := by
  have start : UdpRelated (udpSockByPort net.socks) net fun _ => [] := by
    refine ⟨fun slot => ⟨rfl, ?_, ?_, Nat.zero_le _⟩, fun _ => rfl⟩
    · rw [(empty slot).2]
      rfl
    · rw [(empty slot).1, (empty slot).2]
  obtain ⟨outputs, related⟩ := (udpStep_simulates _).run events allowed start
  refine ⟨outputs, fun slot => ?_, fun event may => related.touched may⟩
  have held := related.holds slot
  refine ⟨held, held.head, ?_⟩
  rw [held.count]
  exact held.fits

def oneSocket : NetRx where
  gIp := 0
  socks := fun slot =>
    { used := slot.val == 0, bound := slot.val == 0, owned := false, lport := 53, rxb := fun _ => 0
      head := 0, n := 0 }
  stats := { ipCsumErr := 0, udpNoListener := 0, rxDropFull := 0 }

def oneDatagram : List UdpEvent :=
  [.arrive (fun i => [0, 9, 0, 53, 0, 10, 0, 0, 7, 8].getD i 0) 10 5,
    .receive (some { type := .udp, lport := 53, slot := ⟨0, by decide⟩, owned := false }) true true 1]

/-- The caller is given the source and the first byte. -/
theorem udp_queue_fifo_one : runOutputs udpStep oneDatagram oneSocket =
    [.queued [⟨0, by decide⟩], .received 1 (some 5) (some 9) [7]] := by
  have fifo := udp_queue_fifo oneSocket (fun _ => ⟨rfl, rfl⟩) oneDatagram
    ⟨⟨by decide, by decide, by decide, by decide, by decide⟩, trivial, trivial⟩
  rw [fifo.1]
  decide

end CatOs.Net
