import CatOs.Net.Tcp.Options
import CatOs.Net.Tcp.Scoreboard
import CatOs.Net.Tcp.Timer

/-! Sending segments: building one, filling the window and selective retransmission. -/

namespace CatOs.Tcp

inductive TxOutcome where
  /-- No frame to build in: the next hop is unresolved or the transmit ring is full. -/
  | noFrame
  /-- The segment was built, and the driver refused it. -/
  | refused
  /-- The segment went out. -/
  | sent
  deriving DecidableEq, Repr

structure TcpEnv where
  ticks : Word
  outcome : Nat → TxOutcome

structure TcpOut where
  dstIp : Word
  srcPort : Half
  dstPort : Half
  seq : Word
  ack : Word
  flags : Flags
  window : Half
  opts : List UInt8
  data : List UInt8
  deriving DecidableEq, Repr

structure TcpIo where
  conn : TcpConn
  /-- Segments attempted since the current operation began. -/
  calls : Nat
  /-- Segments that went out, in order. -/
  wire : List TcpOut
  /-- Bytes accepted from the application, in order. -/
  accepted : List UInt8
  /-- Bytes handed to the application, in order. -/
  delivered : List UInt8

def startIo (c : TcpConn) : TcpIo :=
  { conn := c, calls := 0, wire := [], accepted := [], delivered := [] }

def TcpIo.modify (io : TcpIo) (f : TcpConn → TcpConn) : TcpIo :=
  { io with conn := f io.conn }

@[simp] theorem TcpIo.modify_conn (io : TcpIo) (f : TcpConn → TcpConn) :
    (io.modify f).conn = f io.conn := rfl

def tcpAdvertiseWindow (c : TcpConn) : Nat :=
  let free := tcpBufSize - c.rx.rxn
  if free ≠ 0 ∧ free < tcpMss then 0 else free

def buildSegment (c : TcpConn) (flags : Flags) (seq ack : Word) (data : List UInt8) : TcpOut :=
  { dstIp := c.peerIp
    srcPort := c.lport
    dstPort := c.peerPort
    seq := seq
    ack := ack
    flags := flags
    window := BitVec.ofNat 16 (tcpAdvertiseWindow c)
    opts := tcpBuildOpts c flags
    data := data }

def tcpPutPkt (env : TcpEnv) (io : TcpIo) (flags : Flags) (seq ack : Word) (data : List UInt8) :
    TcpIo × Bool :=
  let outcome := env.outcome io.calls
  let io := { io with calls := io.calls + 1 }
  if outcome = .noFrame then (io, false)
  else
    let segment := buildSegment io.conn flags seq ack data
    -- The announced window is remembered even when the driver then refuses the frame.
    let io := io.modify fun c => { c with advWin := segment.window }
    if outcome = .sent then ({ io with wire := io.wire ++ [segment] }, true) else (io, false)

section List

variable (env : TcpEnv) (io : TcpIo) (flags : Flags) (seq ack : Word) (data : List UInt8)
include env io flags seq ack data

theorem tcpPutPkt_conn : ∃ window,
      (tcpPutPkt env io flags seq ack data).1.conn = { io.conn with advWin := window } := by
  simp only [tcpPutPkt]
  split
  · exact ⟨io.conn.advWin, rfl⟩
  · split <;> exact ⟨_, rfl⟩

@[simp] theorem tcpPutPkt_accepted : (tcpPutPkt env io flags seq ack data).1.accepted = io.accepted := by
  simp only [tcpPutPkt]
  split
  · rfl
  · split <;> rfl

@[simp] theorem tcpPutPkt_delivered : (tcpPutPkt env io flags seq ack data).1.delivered = io.delivered := by
  simp only [tcpPutPkt]
  split
  · rfl
  · split <;> rfl

end List

def tcpPutCtl (env : TcpEnv) (io : TcpIo) (flags : Flags) (seq : Word) : TcpIo :=
  (tcpPutPkt env io flags seq io.conn.rcvNxt []).1

def tcpWindowUpdateAck (env : TcpEnv) (io : TcpIo) : TcpIo :=
  let c := io.conn
  if c.state ≠ .established then io
  else
    let nw := tcpAdvertiseWindow c
    if nw ≠ 0 ∧ c.advWin.toNat < nw ∧ nw ≥ 2 * c.advWin.toNat then
      tcpPutCtl env io tcpFlagAck c.sndNxt
    else io

def TcpConn.inFlight (c : TcpConn) : Word := c.sndNxt - c.sndUna

def sendWin (c : TcpConn) : Word :=
  if c.peerWin.setWidth 32 < c.cwnd then c.peerWin.setWidth 32 else c.cwnd

def effMss (c : TcpConn) : Nat :=
  let m := if c.peerMss ≠ 0 then c.peerMss.toNat else tcpMss
  if m > tcpMss then tcpMss else m

def nextSegmentLen (c : TcpConn) (window : Word) (mss : Nat) : Nat :=
  let n := c.snd.sndUsed - c.inFlight.toNat
  let room := (window - c.inFlight).toNat
  let n := if n > room then room else n
  if n > mss then mss else n

def startRtt (ticks : Word) (n : Nat) (c : TcpConn) : TcpConn :=
  if c.rttPending then c else
    { c with
      rttStamp := ticks
      rttSeq := c.sndNxt + lenWord n
      rttPending := true
      rttRetransmitted := false }

def advanceNxt (n : Nat) (c : TcpConn) : TcpConn := { c with sndNxt := c.sndNxt + lenWord n }

def noteSent (ticks : Word) (n : Nat) (c : TcpConn) : TcpConn :=
  let c := advanceNxt n (startRtt ticks n c)
  tcpPersistClear (tcpRtoRearm ticks (tcpTxAdd c (c.sndNxt - lenWord n) n))

def xmitOne (env : TcpEnv) (window : Word) (mss : Nat) (io : TcpIo) : TcpIo × Bool :=
  let c := io.conn
  if c.inFlight ≥ window ∨ c.snd.sndUsed ≤ c.inFlight.toNat then (io, false)
  else
    let n := nextSegmentLen c window mss
    let (io, ok) := tcpPutPkt env io (tcpFlagAck ||| tcpFlagPsh) c.sndNxt c.rcvNxt
      (c.snd.sndb.read c.inFlight.toNat n)
    -- A segment that did not go out leaves the data for a later attempt.
    if ok then (io.modify (noteSent env.ticks n), true) else (io, false)

/--
Send buffered data that fits in the windows.

Every segment carries at least one byte of the buffer, which bounds their number.
-/
def tcpXmitPending (env : TcpEnv) (io : TcpIo) : TcpIo :=
  let c := io.conn
  if sendWin c = 0 then
    if c.snd.sndUsed > c.inFlight.toNat then io.modify (tcpPersistArm env.ticks) else io
  else doWhile (xmitOne env (sendWin c) (effMss c)) (tcpBufSize + 1) io

def retransmitDue (c : TcpConn) (seg : TxSeg) : Bool :=
  seg.used && seg.lost && !seg.sacked && !seg.retransmitted &&
    !(tcpSeqBefore seg.seq c.sndUna ||
      decide ((seg.seq - c.sndUna + lenWord seg.len).toNat > c.snd.sndUsed))

theorem retransmitDue_counted {c : TcpConn} {seg : TxSeg} (due : retransmitDue c seg = true) :
    (seg.seq - c.sndUna).toNat + seg.len ≤ c.snd.sndUsed := by
  simp only [retransmitDue, Bool.and_eq_true, Bool.not_eq_true', Bool.or_eq_false_iff,
    decide_eq_false_iff_not, not_lt, gt_iff_lt] at due
  obtain ⟨-, ahead, counted⟩ := due
  -- The offset is below half the number space, so that adding the length does not wrap.
  rw [tcpSeqBefore, decide_eq_false_iff_not, not_lt, BitVec.toInt_eq_toNat_cond] at ahead
  have short := seg.len_lt
  have offset : (seg.seq - c.sndUna).toNat < 2 ^ 31 := by
    split at ahead <;> omega
  rw [BitVec.toNat_add, lenWord, BitVec.toNat_ofNat, Nat.mod_eq_of_lt (by omega),
    Nat.mod_eq_of_lt (by omega)] at counted
  exact counted

def noteRetransmitted (ticks : Word) (i : Nat) (c : TcpConn) : TcpConn :=
  tcpRtoRearm ticks
    { c with
      tx := Function.update c.tx i { c.tx i with retransmitted := true }
      rttRetransmitted := true }

def retransmitEntry (env : TcpEnv) (i : Nat) (state : TcpIo × Bool) : TcpIo × Bool :=
  let (io, done) := state
  let c := io.conn
  let seg := c.tx i
  if done || !retransmitDue c seg then (io, done)
  else
    let off := seg.seq - c.sndUna
    let (io, ok) := tcpPutPkt env io (tcpFlagAck ||| tcpFlagPsh) seg.seq c.rcvNxt
      (c.snd.sndb.read off.toNat seg.len)
    if ok then (io.modify (noteRetransmitted env.ticks i), true) else (io, false)

def tcpTxRetransmitLost (env : TcpEnv) (io : TcpIo) : TcpIo × Bool :=
  forRange io.conn.txN (retransmitEntry env) (io, false)

def sackRetransmit (env : TcpEnv) (io : TcpIo) : TcpIo × Bool :=
  if io.conn.sackN ≠ 0 then tcpTxRetransmitLost env io else (io, false)

end CatOs.Tcp
