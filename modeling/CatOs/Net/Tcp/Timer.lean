import CatOs.Net.Tcp.Conn

/-! Retransmission and persist timers, round-trip estimation and the congestion window. -/

namespace CatOs.Tcp

def tcpRtoInit : Word := 30

def tcpRtoMax : Word := 240

def tcpRtoRetrySynrcvd : BitVec 8 := 3

def tcpRtoRetryData : BitVec 8 := 5

def nextBackoff (backoff : Fin 7) : Fin 7 :=
  if below : backoff.val < 6 then ⟨backoff.val + 1, by omega⟩ else backoff

def tcpPersistArm (ticks : Word) (c : TcpConn) : TcpConn :=
  if c.persistDeadline = 0 then { c with persistDeadline := ticks + tcpRtoInit } else c

def tcpPersistClear (c : TcpConn) : TcpConn :=
  { c with persistDeadline := 0, persistBackoff := noBackoff }

def tcpPersistRetry (ticks : Word) (c : TcpConn) : TcpConn :=
  let backoff := nextBackoff c.persistBackoff
  let d := tcpRtoInit <<< backoff.val
  { c with
    persistBackoff := backoff
    persistDeadline := ticks + if d > tcpRtoMax then tcpRtoMax else d }

def clampRto (r : Word) : Word :=
  if r < tcpRtoInit then tcpRtoInit else if r > tcpRtoMax then tcpRtoMax else r

def rtoBase (c : TcpConn) : Word :=
  clampRto (if c.rtoTicks ≠ 0 then c.rtoTicks else tcpRtoInit)

def rtoNow (c : TcpConn) : Word :=
  let r := rtoBase c <<< c.rtoBackoff.val
  if r > tcpRtoMax then tcpRtoMax else r

def tcpRtoArm (ticks : Word) (c : TcpConn) : TcpConn :=
  { c with rtoDeadline := ticks + rtoNow c, rtoBackoff := noBackoff, rtoAttempts := 0 }

def tcpRtoRearm (ticks : Word) (c : TcpConn) : TcpConn :=
  { c with rtoDeadline := ticks + rtoNow c }

def tcpRtoRetry (ticks : Word) (c : TcpConn) : TcpConn :=
  tcpRtoRearm ticks
    { c with rtoBackoff := nextBackoff c.rtoBackoff, rtoAttempts := c.rtoAttempts + 1 }

def tcpCcInit (c : TcpConn) : TcpConn :=
  { c with
    rtoTicks := tcpRtoInit
    rttStamp := 0
    rttSeq := 0
    srttTicks := 0
    rttvarTicks := 0
    rttPending := false
    rttRetransmitted := false
    cwnd := lenWord tcpMss
    ssthresh := lenWord tcpBufSize
    dupacks := 0
    fastRecovery := false
    recoverSeq := 0 }

def tcpRttSample (c : TcpConn) (sample : Word) : TcpConn :=
  let sample := if sample = 0 then 1 else sample
  let (srtt, rttvar) :=
    if c.srttTicks = 0 then (sample, sample / 2)
    else
      let d := if c.srttTicks > sample then c.srttTicks - sample else sample - c.srttTicks
      ((7 * c.srttTicks + sample) / 8, (3 * c.rttvarTicks + d) / 4)
  { c with srttTicks := srtt, rttvarTicks := rttvar, rtoTicks := clampRto (srtt + 4 * rttvar) }

def setCwnd (cwnd : Word) (c : TcpConn) : TcpConn := { c with cwnd := cwnd }

def shrinkWindow (ssthresh : Word) (c : TcpConn) : TcpConn :=
  { c with
    ssthresh := ssthresh
    cwnd := lenWord tcpMss
    dupacks := 0
    fastRecovery := false }

def tcpLossWindow (c : TcpConn) (inFlight : Word) : TcpConn :=
  let half := inFlight / 2
  shrinkWindow (if half < lenWord (2 * tcpMss) then lenWord (2 * tcpMss) else half) c

end CatOs.Tcp
