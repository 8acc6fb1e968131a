import CatOs.Net.Tcp.Socket

/-! The connection table: finding the connection of a segment and opening new ones. -/

namespace CatOs.Tcp

structure TcpTable where
  conns : Buffer TcpConn
  seqGen : Word

def TcpTable.setConn (w : TcpTable) (i : Nat) (c : TcpConn) : TcpTable :=
  { w with conns := Function.update w.conns i c }

def TcpTable.findConn (w : TcpTable) (test : TcpConn → Bool) : Option Nat :=
  (List.range tcpMaxConns).find? fun i => test (w.conns i)

def tcpConnFindFree (w : TcpTable) : Option Nat :=
  w.findConn fun c => !c.used

def tcpConnFindPeer (w : TcpTable) (ip : Word) (sport : Half) : Option Nat :=
  w.findConn fun c => c.used && c.peerIp == ip && c.peerPort == sport

def tcpConnFindListen (w : TcpTable) (port : Half) : Option Nat :=
  w.findConn fun c => c.used && c.state == .listen && c.lport == port

def tcpPendingCount (w : TcpTable) (port : Half) : Nat :=
  forRange tcpMaxConns (fun i n =>
    let c := w.conns i
    if c.used ∧ !c.accepted ∧ c.lport = port ∧
        (c.state = .synReceived ∨ c.state = .established) then n + 1 else n) 0

def tcpSendRstAck (env : TcpEnv) (s : TcpIn) (srcIp : Word) : List TcpOut :=
  if env.outcome 0 ≠ .sent then []
  else
    let control : Nat := if s.has (tcpFlagSyn ||| tcpFlagFin) then 1 else 0
    [{ dstIp := srcIp
       srcPort := s.dstPort
       dstPort := s.srcPort
       seq := if s.has tcpFlagAck then s.seq else 0
       ack := if s.has tcpFlagAck then 0 else s.seq + s.dlen + lenWord control
       flags := if s.has tcpFlagAck then tcpFlagRst else tcpFlagRst ||| tcpFlagAck
       window := 0
       opts := []
       data := [] }]

def claimSlot (s : TcpIn) (srcIp : Word) (c : TcpConn) : TcpConn :=
  let c := { c with
    state := .synReceived
    lport := s.dstPort
    peerIp := srcIp
    peerPort := s.srcPort
    peerWin := s.window
    accepted := false
    rx := { c.rx with rxn := 0, rxn_le := Nat.zero_le _ }
    snd := { c.snd with sndUsed := 0, sndUsed_le := Nat.zero_le _ } }
  let c := tcpTxReset c
  tcpCcInit { c with
    testSent := false
    testClosed := false
    persistDeadline := 0
    persistBackoff := noBackoff
    dead := false }

def numberSlot (s : TcpIn) (isn : Word) (c : TcpConn) : TcpConn :=
  { c with
    rcvIsn := s.seq
    rcvNxt := s.seq + 1
    sndIsn := isn
    sndNxt := isn + 1
    sndUna := isn + 1
    used := true }

def initSynConn (s : TcpIn) (srcIp isn : Word) (c : TcpConn) : TcpConn :=
  numberSlot s isn (tcpParseOpts (claimSlot s srcIp c) s.opts true)

def tcpSynAccept (env : TcpEnv) (s : TcpIn) (srcIp isn : Word) (c : TcpConn) : TcpIo :=
  tcpResendSynack env (startIo (initSynConn s srcIp isn c))

def tcpHandleListen (env : TcpEnv) (w : TcpTable) (s : TcpIn) (srcIp : Word) :
    TcpTable × List TcpOut :=
  match tcpConnFindListen w s.dstPort with
  | none => (w, tcpSendRstAck env s srcIp)
  | some l =>
    if !s.has tcpFlagSyn then (w, tcpSendRstAck env s srcIp)
    else if tcpPendingCount w s.dstPort ≥ (w.conns l).backlog then (w, tcpSendRstAck env s srcIp)
    else
      match tcpConnFindFree w with
      | none => (w, tcpSendRstAck env s srcIp)
      | some i =>
        let io := tcpSynAccept env s srcIp w.seqGen (w.conns i)
        ({ w.setConn i io.conn with seqGen := w.seqGen + 1 }, io.wire)

def isStale (s : TcpIn) (c : TcpConn) : Bool :=
  s.has tcpFlagSyn && !s.has tcpFlagAck &&
    (c.state == .timeWait || c.state == .lastAck || c.state == .closeWait ||
      c.state == .closing || c.state == .finWait1 || c.state == .finWait2)

def tcpHandle (env : TcpEnv) (w : TcpTable) (seg : List UInt8) (srcIp : Word) :
    TcpTable × List TcpOut :=
  match tcpParseSegment seg with
  | none => (w, [])
  | some s =>
    match tcpConnFindPeer w srcIp s.srcPort with
    | none => tcpHandleListen env w s srcIp
    | some i =>
      -- The old connection gives way, so that the request reaches the listener.
      if isStale s (w.conns i) then
        tcpHandleListen env (w.setConn i (releaseConn (w.conns i))) s srcIp
      else
        let io := tcpHandleConn env s (startIo (w.conns i))
        (w.setConn i io.conn, io.wire)

def tcpTick (env : TcpEnv) (w : TcpTable) : TcpTable × List TcpOut :=
  let (w, _, wire) := forRange tcpMaxConns (fun i (state : TcpTable × Nat × List TcpOut) =>
    let (w, calls, wire) := state
    let io := tcpTickConn env { startIo (w.conns i) with calls := calls }
    (w.setConn i io.conn, io.calls, wire ++ io.wire)) (w, 0, [])
  (w, wire)

end CatOs.Tcp
