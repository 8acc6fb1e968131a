import CatOs.Net.Tcp.Conn

/-! The scoreboard of data sent and not yet acknowledged. -/

namespace CatOs.Tcp

def tcpTxReset (c : TcpConn) : TcpConn :=
  { c with
    tx := forRange tcpTxSegMax (fun i tx => Function.update tx i { tx i with used := false }) c.tx
    txN := 0 }

def freshTxSeg (seq : Word) (len : Nat) : TxSeg :=
  { seq := seq, len := len % 2 ^ 16, len_lt := mod_half_lt _, used := true
    sacked := false, lost := false, retransmitted := false }

def tcpTxAdd (c : TcpConn) (seq : Word) (len : Nat) : TcpConn :=
  if len = 0 ∨ len > tcpMss then c
  else if c.txN ≥ tcpTxSegMax then
    let last := c.tx (tcpTxSegMax - 1)
    if seq = last.seq + lenWord last.len ∧ last.len + len ≤ tcpBufSize then
      { c with
        tx := Function.update c.tx (tcpTxSegMax - 1)
          { last with len := (last.len + len) % 2 ^ 16, len_lt := mod_half_lt _ } }
    else c
  else
    { c with tx := Function.update c.tx c.txN (freshTxSeg seq len), txN := c.txN + 1 }

def cutTxSeg (seg : TxSeg) (ack : Word) : TxSeg :=
  if tcpSeqBefore seg.seq ack then
    -- The marks described the whole run, so the rest starts without them.
    { seg with
      seq := ack
      len := (seg.seq + lenWord seg.len - ack).toNat % 2 ^ 16
      len_lt := mod_half_lt _
      sacked := false
      lost := false
      retransmitted := false }
  else seg

def ackTxSeg (ack : Word) (i : Nat) (state : Buffer TxSeg × Nat) : Buffer TxSeg × Nat :=
  let (tx, out) := state
  let seg := tx i
  if !seg.used then (tx, out)
  else if !tcpSeqAfter (seg.seq + lenWord seg.len) ack then (tx, out)
  else
    let tx := Function.update tx i (cutTxSeg seg ack)
    (Function.update tx out (tx i), out + 1)

def tcpTxAck (c : TcpConn) (ack : Word) : TcpConn :=
  let (tx, out) := forRange c.txN (ackTxSeg ack) (c.tx, 0)
  { c with
    tx := forRange tcpTxSegMax
      (fun i tx => if out ≤ i then Function.update tx i { tx i with used := false } else tx) tx
    txN := out % 2 ^ 8 }

def sackHigh (c : TcpConn) : Word :=
  forRange c.sackN
    (fun b high => if tcpSeqAfter (c.sackRight b) high then c.sackRight b else high) c.sndUna

def sackCovers (c : TcpConn) (seg : TxSeg) : Bool :=
  (List.range c.sackN).any fun b =>
    !tcpSeqBefore seg.seq (c.sackLeft b) &&
      !tcpSeqAfter (seg.seq + lenWord seg.len) (c.sackRight b)

def tcpTxSack (c : TcpConn) : TcpConn :=
  let high := sackHigh c
  { c with
    tx := forRange c.txN (fun i tx =>
      let seg := tx i
      if !seg.used then tx
      else
        let covered := sackCovers c seg
        Function.update tx i
          { seg with sacked := covered, lost := !covered && tcpSeqBefore seg.seq high }) c.tx }

def tcpTxClearMarks (c : TcpConn) : TcpConn :=
  { c with
    tx := forRange c.txN (fun i tx => Function.update tx i
      { tx i with sacked := false, lost := false, retransmitted := false }) c.tx }

end CatOs.Tcp
