import CatOs.Net.Tcp.Output
import CatOs.Net.Tcp.Receive

/-! What an incoming segment does to the connection it is for. -/

namespace CatOs.Tcp

structure TcpIn where
  srcPort : Half
  dstPort : Half
  seq : Word
  ack : Word
  flags : Flags
  window : Half
  opts : List UInt8
  data : List UInt8
  deriving DecidableEq, Repr

def tcpParseSegment (seg : List UInt8) : Option TcpIn :=
  if seg.length < 20 then none
  else
    let hlen := (seg.getD 12 0).toNat / 16 % 16 * 4
    if hlen < 20 ∨ hlen > seg.length then none
    else some
      { srcPort := be16 seg
        dstPort := be16 (seg.drop 2)
        seq := be32 (seg.drop 4)
        ack := be32 (seg.drop 8)
        flags := (seg.getD 13 0).toBitVec
        window := be16 (seg.drop 14)
        opts := (seg.drop 20).take (hlen - 20)
        data := seg.drop hlen }

def TcpIn.has (s : TcpIn) (flag : Flags) : Bool := s.flags.has flag

def TcpIn.dlen (s : TcpIn) : Word := lenWord s.data.length

def releaseConn (c : TcpConn) : TcpConn :=
  { c with used := false, state := .closed, rtoDeadline := 0, persistDeadline := 0, twUntil := 0 }

def tcpResendSynack (env : TcpEnv) (io : TcpIo) : TcpIo :=
  (tcpPutCtl env io tcpFlagSynack io.conn.sndIsn).modify (tcpRtoArm env.ticks)

def tcpHandleRst (env : TcpEnv) (s : TcpIn) (io : TcpIo) : TcpIo :=
  let c := io.conn
  let rcvWin := lenWord (tcpBufSize - c.rx.rxn)
  if s.seq ≠ c.rcvNxt ∧ tcpSeqAfter s.seq c.rcvNxt ∧ tcpSeqBefore s.seq (c.rcvNxt + rcvWin) then
    -- Elsewhere in the window it is only challenged.
    tcpPutCtl env io tcpFlagAck c.sndNxt
  else if s.seq = c.rcvNxt then io.modify fun c => releaseConn { c with dead := true }
  else io

def setPeerWin (window : Half) (c : TcpConn) : TcpConn := { c with peerWin := window }

def windowTimer (ticks : Word) (s : TcpIn) (c : TcpConn) : TcpConn :=
  if s.has tcpFlagAck ∧ c.peerWin ≠ 0 then tcpPersistClear c
  else if s.has tcpFlagAck ∧ c.peerWin = 0 ∧ c.snd.sndUsed > c.inFlight.toNat then
    tcpPersistArm ticks c
  else c

def tcpHandleWindow (ticks : Word) (s : TcpIn) (c : TcpConn) : TcpConn :=
  tcpParseOpts (resetSack (windowTimer ticks s (setPeerWin s.window c))) s.opts false

def startRecovery (cwnd : Word) (c : TcpConn) : TcpConn :=
  { c with
    dupacks := 3
    cwnd := cwnd
    fastRecovery := true
    recoverSeq := c.sndNxt }

def enterRecovery (inFlight : Word) (c : TcpConn) : TcpConn :=
  let c := tcpLossWindow c inFlight
  startRecovery (c.ssthresh + lenWord (3 * tcpMss)) c

def tcpFastRetransmit (env : TcpEnv) (inFlight : Word) (sackRetx : Bool) (io : TcpIo) : TcpIo :=
  let io := io.modify (enterRecovery inFlight)
  let (io, sackRetx) := if sackRetx then (io, true) else sackRetransmit env io
  if sackRetx then io
  else
    let c := io.conn
    let len := if inFlight.toNat > tcpMss then tcpMss else inFlight.toNat
    let (io, ok) := tcpPutPkt env io (tcpFlagAck ||| tcpFlagPsh) c.sndUna c.rcvNxt
      (c.snd.sndb.read 0 len)
    if ok then io.modify fun c => tcpRtoRearm env.ticks { c with rttRetransmitted := true }
    else io.modify fun c => tcpRtoRearm env.ticks { c with fastRecovery := false }

def countDupAck (c : TcpConn) : TcpConn := { c with dupacks := c.dupacks + 1 }

def inflateCwnd (c : TcpConn) : TcpConn := setCwnd (c.cwnd + lenWord tcpMss) c

def tcpHandleDupAck (env : TcpEnv) (inFlight : Word) (io : TcpIo) : TcpIo :=
  let io := io.modify countDupAck
  let (io, sackRetx) := sackRetransmit env io
  if io.conn.dupacks = 3 then tcpFastRetransmit env inFlight sackRetx io
  else if io.conn.fastRecovery ∧ io.conn.dupacks > 3 then
    tcpXmitPending env (io.modify inflateCwnd)
  else io

def endRtt (c : TcpConn) : TcpConn := { c with rttPending := false }

def tcpAckRtt (ticks : Word) (ack : Word) (c : TcpConn) : TcpConn :=
  if c.rttPending ∧ !tcpSeqBefore ack c.rttSeq then
    -- A retransmitted segment yields no measurement.
    endRtt (if c.rttRetransmitted then c else tcpRttSample c (ticks - c.rttStamp))
  else c

def TcpSnd.ack (snd : TcpSnd) (acked : Nat) : TcpSnd :=
  { sndb := if acked ≠ 0 then snd.sndb.copyWithin 0 acked (snd.sndUsed - acked) else snd.sndb
    sndUsed := snd.sndUsed - acked
    sndUsed_le := Nat.le_trans (Nat.sub_le _ _) snd.sndUsed_le }

def tcpAckCwnd (acked : Nat) (c : TcpConn) : TcpConn :=
  if acked = 0 then c
  else if c.cwnd < c.ssthresh then
    setCwnd (c.cwnd + lenWord (if acked > tcpMss then tcpMss else acked)) c
  else
    let inc := lenWord (tcpMss * acked) / (if c.cwnd ≠ 0 then c.cwnd else lenWord tcpMss)
    setCwnd (c.cwnd + if inc ≠ 0 then inc else 1) c

def tcpAckRecovery (ack : Word) (c : TcpConn) : TcpConn :=
  if c.fastRecovery ∧ (tcpSeqAfter ack c.recoverSeq ∨ ack = c.recoverSeq) then
    { c with cwnd := c.ssthresh, fastRecovery := false }
  else c

def tcpAckAdvance (ticks : Word) (ack : Word) (c : TcpConn) : TcpConn :=
  let acked := min (ack - c.sndUna).toNat c.snd.sndUsed
  let c := tcpAckRtt ticks ack c
  let c := { c with sndUna := ack, snd := c.snd.ack acked }
  let c := tcpAckRecovery ack (tcpAckCwnd acked (tcpTxAck c ack))
  { c with dupacks := 0, rtoBackoff := noBackoff, rtoAttempts := 0 }

def tcpAckTimer (ticks : Word) (c : TcpConn) : TcpConn :=
  if c.sndNxt = c.sndUna then { c with rtoDeadline := 0 }
  else if c.rtoDeadline = 0 then tcpRtoRearm ticks c
  else c

def tcpHandleNewAck (env : TcpEnv) (ack : Word) (io : TcpIo) : TcpIo :=
  let io := io.modify (tcpAckAdvance env.ticks ack)
  let (io, retransmitted) := sackRetransmit env io
  let io := if retransmitted then io else tcpXmitPending env io
  io.modify (tcpAckTimer env.ticks)

def tcpHandleAck (env : TcpEnv) (s : TcpIn) (oldWin : Half) (io : TcpIo) : TcpIo :=
  if !s.has tcpFlagAck then io
  else
    let inFlight := io.conn.inFlight
    let io := if io.conn.sackN ≠ 0 then io.modify tcpTxSack else io
    let c := io.conn
    if s.ack = c.sndUna ∧ inFlight ≠ 0 ∧ c.peerWin ≤ oldWin then tcpHandleDupAck env inFlight io
    else if s.ack = c.sndUna ∧ c.peerWin > oldWin then
      tcpXmitPending env (io.modify fun c => { c with dupacks := 0 })
    else if tcpSeqAfter s.ack c.sndUna ∧ !tcpSeqAfter s.ack c.sndNxt then
      tcpHandleNewAck env s.ack io
    else io

def tcpHandleData (env : TcpEnv) (s : TcpIn) (io : TcpIo) : TcpIo :=
  if s.data.length = 0 then io
  else
    let io := io.modify fun c => (tcpAcceptData c s.seq s.data).1
    tcpPutCtl env io tcpFlagAck io.conn.sndNxt

def enterTimeWait (ticks : Word) (c : TcpConn) : TcpConn :=
  { c with state := .timeWait, twUntil := ticks + 200 }

def tcpSendFin (env : TcpEnv) (next : TcpState) (io : TcpIo) : TcpIo :=
  (tcpPutCtl env io tcpFlagFinack io.conn.sndNxt).modify fun c =>
    tcpRtoArm env.ticks { c with sndNxt := c.sndNxt + 1, state := next }

def tcpAckFin (env : TcpEnv) (io : TcpIo) : TcpIo :=
  let io := io.modify fun c => { c with rcvNxt := c.rcvNxt + 1 }
  tcpPutCtl env io tcpFlagAck io.conn.sndNxt

def tcpFinState (env : TcpEnv) (io : TcpIo) : TcpIo :=
  match io.conn.state with
  | .finWait1 =>
    if io.conn.sndUna ≥ io.conn.sndNxt then io.modify (enterTimeWait env.ticks)
    else io.modify fun c => { c with state := .closing }
  | .finWait2 | .closing => io.modify (enterTimeWait env.ticks)
  | .closeWait => io
  -- An open connection is closed from this side at once.
  | _ => tcpSendFin env .lastAck (io.modify fun c => { c with state := .closeWait })

def tcpHandleFin (env : TcpEnv) (io : TcpIo) : TcpIo :=
  tcpFinState env (tcpAckFin env io)

def enterFinWait2 (c : TcpConn) : TcpConn := { c with state := .finWait2, rtoDeadline := 0 }

def tcpFinishClose (ticks : Word) (s : TcpIn) (c : TcpConn) : TcpConn :=
  let c :=
    if c.state = .finWait1 ∧ s.has tcpFlagAck ∧ c.sndUna ≥ c.sndNxt then enterFinWait2 c else c
  if c.state = .closing ∧ s.has tcpFlagAck ∧ c.sndUna ≥ c.sndNxt then enterTimeWait ticks c else c

def tcpHandleOpen (env : TcpEnv) (s : TcpIn) (io : TcpIo) : TcpIo :=
  let io := tcpHandleData env s io
  if s.has tcpFlagFin ∧ s.seq + s.dlen = io.conn.rcvNxt then tcpHandleFin env io
  else
    let io := if s.has tcpFlagFin then tcpPutCtl env io tcpFlagAck io.conn.sndNxt else io
    io.modify (tcpFinishClose env.ticks s)

def tcpHandleState (env : TcpEnv) (s : TcpIn) (io : TcpIo) : TcpIo :=
  match io.conn.state with
  | .synReceived =>
    let io :=
      if s.has tcpFlagAck ∧ s.ack = io.conn.sndNxt then
        io.modify fun c =>
          { c with state := .established, rtoDeadline := 0, rtoAttempts := 0, rtoBackoff := noBackoff }
      else io
    tcpHandleData env s io
  | .established | .finWait1 | .finWait2 | .closeWait | .closing => tcpHandleOpen env s io
  | .lastAck =>
    if s.has tcpFlagFin ∧ s.seq + s.dlen + 1 = io.conn.rcvNxt then
      tcpPutCtl env io tcpFlagAck io.conn.sndNxt
    else if s.has tcpFlagAck ∧ s.ack ≥ io.conn.sndNxt then
      io.modify fun c => { c with used := false, state := .closed, rtoDeadline := 0 }
    else io
  | .timeWait =>
    if s.has tcpFlagFin ∨ s.data.length ≠ 0 then tcpPutCtl env io tcpFlagAck io.conn.sndNxt else io
  | _ => io

def tcpHandleConn (env : TcpEnv) (s : TcpIn) (io : TcpIo) : TcpIo :=
  let c := io.conn
  -- A repeated connection request means that the reply to it was lost.
  if c.state = .synReceived ∧ s.has tcpFlagSyn ∧ s.seq = c.rcvIsn then tcpResendSynack env io
  else if s.has tcpFlagRst then tcpHandleRst env s io
  else
    let io := io.modify (tcpHandleWindow env.ticks s)
    tcpHandleState env s (tcpHandleAck env s c.peerWin io)

end CatOs.Tcp
