import CatOs.Net.Tcp.Handle

/-! The application's calls on a connection, and the work done on it at every clock tick. -/

namespace CatOs.Tcp

def catosEagain : Int := 11

def catosEconnreset : Int := 104

def TcpSnd.append (snd : TcpSnd) (data : List UInt8)
    (fits : snd.sndUsed + data.length ≤ tcpBufSize) : TcpSnd :=
  { sndb := snd.sndb.write snd.sndUsed data
    sndUsed := snd.sndUsed + data.length
    sndUsed_le := fits }

def queueSnd (c : TcpConn) (data : List UInt8)
    (fits : c.snd.sndUsed + data.length ≤ tcpBufSize) : TcpConn :=
  { c with snd := c.snd.append data fits }

def sendLen (c : TcpConn) (offered : Nat) : Nat :=
  let len := if offered > 1460 then 1460 else offered
  if len > tcpBufSize - c.snd.sndUsed then tcpBufSize - c.snd.sndUsed else len

theorem sendLen_fits (c : TcpConn) (data : List UInt8) :
    c.snd.sndUsed + (data.take (sendLen c data.length)).length ≤ tcpBufSize := by
  have bounded := c.snd.sndUsed_le
  simp only [sendLen, List.length_take]
  split <;> split <;> omega

def tcpSend (env : TcpEnv) (io : TcpIo) (data : List UInt8) : TcpIo × Int :=
  let c := io.conn
  if c.dead then (io, -catosEconnreset)
  else if c.state ≠ .established then (io, -1)
  else if data.length = 0 then (io, 0)
  else
    let len := sendLen c data.length
    if len = 0 then (io, -catosEagain)
    else
      let taken := data.take len
      let io := { io with
        conn := queueSnd c taken (sendLen_fits c data)
        accepted := io.accepted ++ taken }
      (tcpXmitPending env io, len)

def TcpRx.consume (rx : TcpRx) (n : Nat) : TcpRx :=
  { rxb := if rx.rxn > n then rx.rxb.copyWithin 0 n (rx.rxn - n) else rx.rxb
    rxn := rx.rxn - n
    rxn_le := Nat.le_trans (Nat.sub_le _ _) rx.rxn_le }

def consumeRx (n : Nat) (c : TcpConn) : TcpConn := { c with rx := c.rx.consume n }

def tcpRecv (env : TcpEnv) (io : TcpIo) (maxLen : Nat) : TcpIo × Int :=
  let c := io.conn
  if c.dead then (io, -catosEconnreset)
  else if c.rx.rxn = 0 then
    -- After the peer's close the empty buffer is the end of the stream.
    if c.state = .closeWait ∨ c.state = .lastAck ∨ c.state = .timeWait then (io, 0) else (io, -1)
  else
    let n := if c.rx.rxn > maxLen then maxLen else c.rx.rxn
    let io := { io with
      conn := consumeRx n c
      delivered := io.delivered ++ c.rx.rxb.read 0 n }
    (tcpWindowUpdateAck env io, n)

def tcpClose (env : TcpEnv) (io : TcpIo) : TcpIo :=
  let io :=
    if io.conn.state = .established then tcpSendFin env .finWait1 io
    else if io.conn.state = .closeWait then tcpSendFin env .lastAck io
    else io
  io.modify fun c => { c with accepted := false }

def testPort : Half := 81

def testBlock (k : Nat) : List UInt8 :=
  (List.range 90).map fun j => UInt8.ofNat (65 + (k * 90 + j) % 26)

def tcpTestSend (env : TcpEnv) (io : TcpIo) : TcpIo :=
  let (io, _) := forRange 16 (fun k (state : TcpIo × Bool) =>
    if state.2 then
      let (io, n) := tcpSend env state.1 (testBlock k)
      (io, n = 90)
    else state) (io, true)
  io.modify fun c => { c with testSent := true }

theorem tcpTestSend_keeps (holds : TcpIo → Prop) {env : TcpEnv}
    (sent : ∀ io data, holds io → holds (tcpSend env io data).1) {io : TcpIo}
    (initially : holds io) : ∃ after, holds after ∧
      tcpTestSend env io = after.modify fun c => { c with testSent := true } := by
  simp only [tcpTestSend]
  refine ⟨_, ?_, rfl⟩
  refine forRange_invariant (fun _ (state : TcpIo × Bool) => holds state.1) initially ?_
  intro k state _ held
  split
  · exact sent state.1 (testBlock k) held
  · exact held

def tcpTestTick (env : TcpEnv) (io : TcpIo) : TcpIo :=
  let c := io.conn
  if c.state = .established ∧ c.lport = testPort then
    if !c.testSent then tcpTestSend env io
    else if !c.testClosed ∧ c.snd.sndUsed = 0 ∧ c.sndNxt = c.sndUna then
      (tcpClose env io).modify fun c => { c with testClosed := true }
    else io
  else io

def expired (ticks deadline : Word) : Bool :=
  deadline ≠ 0 && decide (0 ≤ (ticks - deadline).toInt)

def tcpPersistTick (env : TcpEnv) (io : TcpIo) : TcpIo :=
  let c := io.conn
  if !expired env.ticks c.persistDeadline then io
  else if c.peerWin ≠ 0 ∨ c.snd.sndUsed ≤ c.inFlight.toNat then io.modify tcpPersistClear
  else
    let (io, _) := tcpPutPkt env io (tcpFlagAck ||| tcpFlagPsh) c.sndUna c.rcvNxt
      (c.snd.sndb.read 0 1)
    io.modify fun c => tcpPersistRetry env.ticks { c with rttRetransmitted := true }

def noteTimeout (inFlight : Nat) (c : TcpConn) : TcpConn :=
  { tcpLossWindow (tcpTxClearMarks c) (lenWord inFlight) with rttRetransmitted := true }

def tcpRtoData (env : TcpEnv) (io : TcpIo) : TcpIo :=
  let c := io.conn
  let inFlight := if c.inFlight.toNat > c.snd.sndUsed then c.snd.sndUsed else c.inFlight.toNat
  let io := io.modify (noteTimeout inFlight)
  let (io, _) := tcpPutPkt env io (tcpFlagAck ||| tcpFlagPsh) c.sndUna c.rcvNxt
    (c.snd.sndb.read 0 inFlight)
  io.modify (tcpRtoRetry env.ticks)

def tcpRtoTick (env : TcpEnv) (io : TcpIo) : TcpIo :=
  let c := io.conn
  if !expired env.ticks c.rtoDeadline then io
  else
    let r2 := if c.state = .synReceived then tcpRtoRetrySynrcvd else tcpRtoRetryData
    if c.rtoAttempts ≥ r2 then io.modify releaseConn
    else if c.state = .synReceived then
      (tcpPutCtl env io tcpFlagSynack c.sndIsn).modify (tcpRtoRetry env.ticks)
    else if c.state = .lastAck ∨
        ((c.state = .finWait1 ∨ c.state = .closing) ∧ c.snd.sndUsed = 0) then
      (tcpPutCtl env io tcpFlagFinack (c.sndNxt - 1)).modify (tcpRtoRetry env.ticks)
    else if c.snd.sndUsed ≠ 0 then tcpRtoData env io
    else io.modify fun c => { c with rtoDeadline := 0 }

def tcpTickConn (env : TcpEnv) (io : TcpIo) : TcpIo :=
  let c := io.conn
  if !c.used then io
  else if c.state = .timeWait then
    if expired env.ticks c.twUntil then io.modify fun c => { c with used := false, state := .closed }
    else io
  else tcpRtoTick env (tcpPersistTick env (tcpTestTick env io))

end CatOs.Tcp
