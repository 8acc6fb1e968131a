import CatOs.Lib.Checked
import CatOs.Net.UdpQueue

/-! The name resolver: reading names, building queries, taking responses apart, and waiting. -/

namespace CatOs.Net

open Tcp (be16 be16Bytes)

def dnsNameMax : Nat := 64

def dnsQnameCap : Nat := 80

def dnsTotalTimeout : Word := 300

def dnsResendTicks : Word := 25

def dnsCnameMax : Nat := 4

def dnsNamePtrMax : Nat := 8

def dnsRxMax : Nat := 512

section Names

structure NameState where
  p : Nat
  jumps : Nat
  used : Nat
  ol : Nat
  jumped : Bool
  off : Nat
  out : Option (List UInt8)

structure NameResult where
  ok : Bool
  off : Nat
  out : Option (List UInt8)
  dlen : Option Nat
  deriving DecidableEq, Repr

inductive NameStep where
  | stop (r : NameResult)
  | next (s : NameState)

def NameState.fail (s : NameState) : NameResult :=
  { ok := false, off := s.off, out := s.out, dlen := none }

def nameEnd (cap : Nat) (s : NameState) : Except Fault NameStep :=
  let off := if s.jumped then s.off else s.p + 1
  match s.out with
  | none => .ok (.stop { ok := true, off := off, out := none, dlen := some (s.ol + 1) })
  | some out =>
    if s.ol + 1 > cap then .ok (.stop s.fail)
    else
      match writeRun out s.ol [0] with
      | .error fault => .error fault
      | .ok out =>
        .ok (.stop { ok := true, off := off, out := some out, dlen := some (s.ol + 1) })

def namePointer (msg : List UInt8) (l : UInt8) (s : NameState) : Except Fault NameStep :=
  if s.p + 2 > msg.length then .ok (.stop s.fail)
  else
    match readAt msg (s.p + 1) with
    | .error fault => .error fault
    | .ok low =>
      let tgt := (l &&& 0x3F).toNat * 256 + low.toNat
      if tgt < 12 ∨ tgt ≥ s.p then .ok (.stop s.fail)
      else if s.jumps + 1 > dnsNamePtrMax then .ok (.stop s.fail)
      else if s.used + 2 > msg.length then .ok (.stop s.fail)
      else
        .ok (.next
          { s with
            jumps := s.jumps + 1
            used := s.used + 2
            off := if s.jumped then s.off else s.p + 2
            p := tgt
            jumped := true })

def copyLabel (msg : List UInt8) (cap : Nat) (l : UInt8) (s : NameState) :
    Except Fault (Option NameState) :=
  match s.out with
  | none => .ok (some s)
  | some out =>
    if s.ol + 1 + l.toNat > cap then .ok none
    else
      match readRun msg (s.p + 1) l.toNat with
      | .error fault => .error fault
      | .ok body =>
        match writeRun out s.ol (l :: body) with
        | .error fault => .error fault
        | .ok out => .ok (some { s with out := some out, ol := s.ol + 1 + l.toNat })

def nameLabel (msg : List UInt8) (cap : Nat) (l : UInt8) (s : NameState) :
    Except Fault NameStep :=
  if l.toNat ≥ msg.length - s.p then .ok (.stop s.fail)
  else
    match copyLabel msg cap l s with
    | .error fault => .error fault
    | .ok none => .ok (.stop s.fail)
    | .ok (some s) =>
      let used := s.used + (1 + l.toNat)
      if used > msg.length then .ok (.stop s.fail)
      else .ok (.next { s with used := used, p := s.p + (1 + l.toNat) })

def nameStep (msg : List UInt8) (cap : Nat) (s : NameState) : Except Fault NameStep :=
  if s.p ≥ msg.length then .ok (.stop s.fail)
  else
    match readAt msg s.p with
    | .error fault => .error fault
    | .ok l =>
      if l = 0 then nameEnd cap s
      else if l &&& 0xC0 = 0xC0 then namePointer msg l s
      -- The two other kinds of label are reserved.
      else if l &&& 0xC0 ≠ 0 then .ok (.stop s.fail)
      else nameLabel msg cap l s

def nameLoop (msg : List UInt8) (cap : Nat) : Nat → NameState → Except Fault NameResult
  | 0, _ => .error .endless
  | fuel + 1, s =>
    match nameStep msg cap s with
    | .error fault => .error fault
    | .ok (.stop r) => .ok r
    | .ok (.next s) => nameLoop msg cap fuel s

/--
Read the name at an offset of a message, and write it out if the caller gives room for it.

Offsets and lengths count bytes of arrays, whose sizes leave room for the sums above them.
-/
def dnsReadName (msg : List UInt8) (off : Nat) (out : Option (List UInt8)) (cap : Nat) :
    Except Fault NameResult :=
  nameLoop msg cap (msg.length + 1)
    { p := off, jumps := 0, used := 0, ol := 0, jumped := false, off := off, out := out }

end Names

section Queries

inductive DnsCause where
  | timeout
  | format
  | rcode
  | truncated
  | cnameDepth
  | noA
  deriving DecidableEq, Repr

def netdnsEargs : Int := -22

def netdnsEnoresolver : Int := -101

def netdnsEtimeout : Int := -110

def netdnsErefused : Int := -111

def dnsLabelChar (c : UInt8) : Bool :=
  (48 ≤ c && c ≤ 57) || (97 ≤ c && c ≤ 122) || (65 ≤ c && c ≤ 90) || c == 45

structure DnsEncode where
  pkt : List UInt8
  np : Nat
  labpos : Nat

def endLabel (name : Buffer UInt8) (i : Nat) (s : DnsEncode) : Except Fault (Option DnsEncode) :=
  let llen := i - s.labpos
  if llen = 0 ∨ llen > 63 then .ok none
  else if s.np + 1 + llen > 12 + dnsQnameCap - 1 then .ok none
  else
    match writeRun s.pkt s.np (UInt8.ofNat llen :: name.read s.labpos llen) with
    | .error fault => .error fault
    | .ok pkt => .ok (some { s with pkt := pkt, np := s.np + 1 + llen })

def encodeFrom (name : Buffer UInt8) : Nat → Nat → DnsEncode → Except Fault (Option DnsEncode)
  | 0, _, _ => .error .endless
  | left + 1, i, s =>
    let c := name i
    if c ≠ 0 ∧ i ≥ dnsNameMax then .ok none
    else if c = 46 ∨ c = 0 then
      match endLabel name i s with
      | .error fault => .error fault
      | .ok none => .ok none
      | .ok (some s) =>
        if c = 0 then .ok (some s) else encodeFrom name left (i + 1) { s with labpos := i + 1 }
    else if dnsLabelChar c then encodeFrom name left (i + 1) s
    else .ok none

def dnsPktSize : Nat := 12 + dnsQnameCap + 4

def dnsHeader (txid : Half) : List UInt8 :=
  be16Bytes txid ++ [0x01, 0, 0, 1] ++ List.replicate (dnsPktSize - 6) 0

def dnsQuery (name : Buffer UInt8) (txid : Half) : Except Fault (Option (List UInt8 × Nat)) :=
  match encodeFrom name (dnsNameMax + 1) 0 { pkt := dnsHeader txid, np := 12, labpos := 0 } with
  | .error fault => .error fault
  | .ok none => .ok none
  | .ok (some s) =>
    if s.np = 12 then .ok none
    else
      -- The root, and behind it the type and the class, of which two bytes are zero already.
      match writeRun s.pkt s.np [0] with
      | .error fault => .error fault
      | .ok pkt =>
        match writeRun pkt (s.np + 1) [0, 1] with
        | .error fault => .error fault
        | .ok pkt =>
          match writeRun pkt (s.np + 1 + 3) [1] with
          | .error fault => .error fault
          | .ok pkt => .ok (some (pkt, s.np + 1 + 4))

end Queries

section Responses

inductive DnsAnswer where
  | failed (cause : DnsCause)
  | address (ip : Word)
  | cname (off : Nat)
  | none
  deriving DecidableEq, Repr

def skipQuestions (rxb : List UInt8) : Nat → Nat → Except Fault (Option Nat)
  | 0, off => .ok (some off)
  | left + 1, off =>
    match dnsReadName rxb off none 0 with
    | .error fault => .error fault
    | .ok r =>
      if r.ok ∧ r.off + 4 ≤ rxb.length then skipQuestions rxb left (r.off + 4) else .ok none

structure DnsRecord where
  type : Half
  cls : Half
  rdlen : Nat
  rdata : Nat

def readRecord (rxb : List UInt8) (off : Nat) : Except Fault (Option DnsRecord) :=
  match dnsReadName rxb off none 0 with
  | .error fault => .error fault
  | .ok r =>
    if !r.ok then .ok none
    else if r.off + 10 > rxb.length then .ok none
    else
      match readRun rxb r.off 10 with
      | .error fault => .error fault
      | .ok header =>
        let rdlen := (be16 (header.drop 8)).toNat
        if r.off + 10 + rdlen > rxb.length then .ok none
        else
          .ok (some
            { type := be16 header, cls := be16 (header.drop 2), rdlen := rdlen
              rdata := r.off + 10 })

def DnsRecord.isAddress (r : DnsRecord) : Bool := r.cls = 1 && r.type = 1 && r.rdlen = 4

def recordAlias (rxb : List UInt8) (r : DnsRecord) : Except Fault (Option Nat) :=
  if r.type = 5 ∧ r.rdlen ≠ 0 then
    match dnsReadName rxb r.rdata none 0 with
    | .error fault => .error fault
    | .ok name =>
      .ok (if name.ok ∧ name.off - r.rdata = r.rdlen then some r.rdata else Option.none)
  else .ok Option.none

def readAnswers (rxb : List UInt8) : Nat → Nat → Option Nat → Except Fault DnsAnswer
  | 0, _, lastCn =>
    .ok (match lastCn with
      | some off => .cname off
      | Option.none => .failed .noA)
  | left + 1, off, lastCn =>
    match readRecord rxb off with
    | .error fault => .error fault
    | .ok Option.none => .ok (.failed .format)
    | .ok (some r) =>
      if r.isAddress then
        match readRun rxb r.rdata 4 with
        | .error fault => .error fault
        | .ok bytes => .ok (.address (le32 bytes))
      else
        match recordAlias rxb r with
        | .error fault => .error fault
        | .ok found => readAnswers rxb left (r.rdata + r.rdlen) (found.or lastCn)

def readResponse (rxb : List UInt8) : Except Fault DnsAnswer :=
  match readRun rxb 0 12 with
  | .error fault => .error fault
  | .ok header =>
    let flags := be16 (header.drop 2)
    if flags &&& 0x000F ≠ 0 then .ok (.failed .rcode)
    else if flags &&& 0x0200 ≠ 0 then .ok (.failed .truncated)
    else
      let qd := (be16 (header.drop 4)).toNat
      let an := (be16 (header.drop 6)).toNat
      match skipQuestions rxb qd 12 with
      | .error fault => .error fault
      | .ok Option.none => .ok (.failed .format)
      | .ok (some off) =>
        -- A response without answers says nothing, and the lookup goes on waiting.
        if an = 0 then .ok .none else readAnswers rxb an off Option.none

def takeResponse (txid : Half) (rxb : List UInt8) : Except Fault (Option DnsAnswer) :=
  if rxb.length < 12 then .ok Option.none
  else
    match readRun rxb 0 4 with
    | .error fault => .error fault
    | .ok header =>
      if be16 header ≠ txid then .ok Option.none
      else if be16 (header.drop 2) &&& 0x8000 = 0 then .ok Option.none
      else
        match readResponse rxb with
        | .error fault => .error fault
        | .ok answer => .ok (some answer)

def followCname (rxb : List UInt8) (off : Nat) (pkt : List UInt8) :
    Except Fault (List UInt8 × Option Nat) :=
  match dnsReadName rxb off (some (pkt.drop 12)) dnsQnameCap with
  | .error fault => .error fault
  | .ok r =>
    let pkt := pkt.take 12 ++ r.out.getD []
    let olen := r.dlen.getD 0
    if !r.ok ∨ olen < 2 then .ok (pkt, Option.none)
    else
      match writeRun pkt (12 + olen) [0, 1, 0, 1] with
      | .error fault => .error fault
      | .ok pkt => .ok (pkt, some (16 + olen))

end Responses

section Lookups

structure DnsLookup where
  pkt : List UInt8
  qlen : Nat
  txid : Half
  cnHops : Nat
  lastSend : Word
  cause : DnsCause
  got : Option Word
  /-- The queries that were handed to the card so far, oldest first. -/
  sent : List (List UInt8)

def nextTxid (seqGen : Word) : Half := ((seqGen + 0x9e3779b9) >>> 16).truncate 16

def neverSent : Word := 0xFFFFFFFF

def DnsLookup.answer (seqGen : Word) (rxb : List UInt8) (answer : DnsAnswer) (s : DnsLookup) :
    Except Fault DnsLookup :=
  match answer with
  | .failed cause => .ok { s with cause := cause }
  | .address ip => .ok { s with got := some ip }
  | .none => .ok s
  | .cname off =>
    if s.cnHops ≥ dnsCnameMax then .ok { s with cause := .cnameDepth }
    else
      match followCname rxb off s.pkt with
      | .error fault => .error fault
      | .ok (pkt, Option.none) => .ok { s with pkt := pkt, cause := .format }
      | .ok (pkt, some qlen) =>
        match writeRun pkt 0 (be16Bytes (nextTxid seqGen)) with
        | .error fault => .error fault
        | .ok pkt =>
          .ok
            { s with
              pkt := pkt
              qlen := qlen
              txid := nextTxid seqGen
              cnHops := s.cnHops + 1
              lastSend := neverSent }

def drain (seqGen : Word) : List Datagram → DnsLookup → Except Fault (DnsLookup × List Datagram)
  | [], s => .ok (s, [])
  | d :: rest, s =>
    match takeResponse s.txid (d.payload.take dnsRxMax) with
    | .error fault => .error fault
    | .ok Option.none => drain seqGen rest s
    | .ok (some answer) =>
      match s.answer seqGen (d.payload.take dnsRxMax) answer with
      | .error fault => .error fault
      | .ok s => .ok (s, rest)

structure DnsRound where
  ticks : Word
  seqGen : Word
  arrived : List Datagram

structure DnsOutcome where
  ret : Int
  outIp : Option Word
  sent : List (List UInt8)
  deriving DecidableEq, Repr

def DnsLookup.outcome (s : DnsLookup) : DnsOutcome :=
  match s.got with
  | some ip => { ret := 0, outIp := some ip, sent := s.sent }
  | none =>
    { ret :=
        match s.cause with
        | .timeout => netdnsEtimeout
        | .rcode => netdnsErefused
        | _ => netdnsEargs
      outIp := none
      sent := s.sent }

def DnsLookup.resend (ticks : Word) (s : DnsLookup) : DnsLookup :=
  if s.lastSend = neverSent ∨ ticks - s.lastSend ≥ dnsResendTicks then
    { s with lastSend := ticks, sent := s.sent ++ [s.pkt.take s.qlen] }
  else s

def queueAfter (queue arrived : List Datagram) : List Datagram :=
  arrived.foldl (fun queue d =>
    if queueSize queue + (10 + d.payload.length) ≤ udpRxbuf then queue ++ [d] else queue) queue

def lookupLoop (start : Word) :
    List DnsRound → List Datagram → DnsLookup → Except Fault (Option DnsOutcome)
  | [], _, _ => .ok none
  | round :: rest, queue, s =>
    if round.ticks - start ≥ dnsTotalTimeout then .ok (some s.outcome)
    else
      match drain round.seqGen (queueAfter queue round.arrived) (s.resend round.ticks) with
      | .error fault => .error fault
      | .ok (s, queue) =>
        if s.got.isSome ∨ s.cause ≠ .timeout then .ok (some s.outcome)
        else lookupLoop start rest queue s

def dnsBind (socks : UdpSocks) (txid : Half) : Option (Fin udpSlots × Half) :=
  (List.range 4).findSome? fun t =>
    let p : Half := 0xC000 + ((txid + BitVec.ofNat 16 (t * 97)) &&& 0x1FFF)
    if p = 67 ∨ p = 68 ∨ (udpSockByPort socks p).isSome then none
    else (udpSockFindFree socks).map fun slot => (slot, p)

def firstLookup (txid : Half) (pkt : List UInt8) (qlen : Nat) : DnsLookup :=
  { pkt := pkt, qlen := qlen, txid := txid, cnHops := 0, lastSend := neverSent
    cause := .timeout, got := none, sent := [] }

def resolveName (name : Buffer UInt8) (seqGen : Word) (socks : UdpSocks) (start : Word)
    (rounds : List DnsRound) : Except Fault (Option DnsOutcome) :=
  match dnsQuery name (nextTxid seqGen) with
  | .error fault => .error fault
  | .ok none => .ok (some { ret := netdnsEargs, outIp := none, sent := [] })
  | .ok (some (pkt, qlen)) =>
    match dnsBind socks (nextTxid seqGen) with
    | none => .ok (some { ret := netdnsEnoresolver, outIp := none, sent := [] })
    | some _ => lookupLoop start rounds [] (firstLookup (nextTxid seqGen) pkt qlen)

def netDnsResolve (name : Option (Buffer UInt8)) (out : Bool) (gDns seqGen : Word)
    (socks : UdpSocks) (start : Word) (rounds : List DnsRound) :
    Except Fault (Option DnsOutcome) :=
  match name, out with
  | some name, true =>
    if gDns = 0 then .ok (some { ret := netdnsEnoresolver, outIp := none, sent := [] })
    else resolveName name seqGen socks start rounds
  | _, _ => .ok (some { ret := netdnsEargs, outIp := none, sent := [] })

end Lookups

end CatOs.Net
