import CatOs.Net.Demux
import CatOs.Net.Tcp.Step

/-! Socket handles: opening, binding, accepting and closing them over the two protocol tables. -/

namespace CatOs.Net

open CatOs.Tcp

inductive SockType where
  | closed
  | udp
  | tcpListen
  | tcpEstab
  | udpUnbound
  | tcpUnbound
  deriving DecidableEq, Repr

structure TcpHandle where
  type : SockType
  conn : Option Nat
  deriving DecidableEq, Repr

structure UdpHandle where
  type : SockType
  lport : Half
  slot : Fin udpSlots
  owned : Bool
  deriving DecidableEq, Repr

structure ConnId where
  peerIp : Word
  peerPort : Half
  lport : Half
  rcvIsn : Word
  sndIsn : Word
  deriving DecidableEq, Repr

def connId (c : TcpConn) : ConnId :=
  { peerIp := c.peerIp, peerPort := c.peerPort, lport := c.lport, rcvIsn := c.rcvIsn
    sndIsn := c.sndIsn }

structure NetSocks where
  table : TcpTable
  tcpHandles : Buffer TcpHandle
  udpSocks : UdpSocks
  udpHandles : Fin udpSlots → UdpHandle
  /-- For the reader only: the connection that each handle was accepted for. -/
  acceptedFor : Buffer ConnId

inductive SockRef where
  | tcp (h : Fin tcpMaxConns)
  | udp (i : Fin udpSlots)
  deriving DecidableEq, Repr

def NetSocks.setTcp (n : NetSocks) (h : Nat) (handle : TcpHandle) : NetSocks :=
  { n with tcpHandles := Function.update n.tcpHandles h handle }

def NetSocks.setConn (n : NetSocks) (i : Nat) (c : TcpConn) : NetSocks :=
  { n with table := n.table.setConn i c }

def NetSocks.closeTcp (n : NetSocks) (h : Nat) : NetSocks :=
  n.setTcp h { n.tcpHandles h with type := .closed }

def NetSocks.setUdp (n : NetSocks) (slot : Fin udpSlots) (sock : UdpSock) (i : Fin udpSlots)
    (handle : UdpHandle) : NetSocks :=
  { n with
    udpSocks := Function.update n.udpSocks slot sock
    udpHandles := Function.update n.udpHandles i handle }

def zeroUdpSock : UdpSock :=
  { used := false, bound := false, owned := false, lport := 0, rxb := fun _ => 0, head := 0, n := 0 }

def udpSockFindFree (socks : UdpSocks) : Option (Fin udpSlots) :=
  (List.finRange udpSlots).find? fun i => !(socks i).used

def netSocketOpen (type : Nat) (n : NetSocks) : NetSocks × Option SockRef :=
  if type = 2 then
    match udpSockFindFree n.udpSocks with
    | none => (n, none)
    | some i =>
      (n.setUdp i { zeroUdpSock with used := true, owned := true } i
        { type := .udpUnbound, lport := 0, slot := i, owned := true }, some (.udp i))
  else if type = 1 then
    match tcpConnFindFree n.table with
    | none => (n, none)
    | some i =>
      -- The handle has the index of the connection, whatever it was used for before.
      ((n.setConn i { zeroConn with used := true, state := .closed }).setTcp i
        { type := .tcpUnbound, conn := some i },
        if within : i < tcpMaxConns then some (.tcp ⟨i, within⟩) else none)
  else (n, none)

def bindConn (port : Half) (c : TcpConn) : TcpConn :=
  tcpCcInit (tcpTxReset
    { c with
      state := .listen
      backlog := 1
      lport := port
      peerIp := 0
      peerPort := 0
      accepted := false
      rx := { c.rx with rxn := 0, rxn_le := Nat.zero_le _ }
      snd := { c.snd with sndUsed := 0, sndUsed_le := Nat.zero_le _ }
      sndUna := 0
      sndNxt := 0
      sndIsn := 0
      rtoDeadline := 0
      rtoBackoff := noBackoff
      rtoAttempts := 0
      twUntil := 0
      persistDeadline := 0
      persistBackoff := noBackoff })

def catosEbadf : Int := 9

def catosEinval : Int := 22

def catosEaddrinuse : Int := 98

def netSocketBind (s : SockRef) (port : Half) (n : NetSocks) : NetSocks × Int :=
  if port = 0 then (n, -catosEinval)
  else
    match s with
    | .udp i =>
      let h := n.udpHandles i
      if h.type = .udpUnbound then
        let u := n.udpSocks h.slot
        if !u.used ∨ !u.owned ∨ (udpSockByPort n.udpSocks port).isSome then (n, -catosEaddrinuse)
        else
          (n.setUdp h.slot { u with bound := true, lport := port, head := 0, n := 0 } i
            { h with type := .udp, lport := port }, 0)
      else (n, -catosEinval)
    | .tcp i =>
      let h := n.tcpHandles i
      if h.type = .tcpUnbound then
        if (tcpConnFindListen n.table port).isSome then (n, -catosEaddrinuse)
        else
          match h.conn with
          | none => (n, -catosEinval)
          | some c =>
            ((n.setConn c (bindConn port (n.table.conns c))).setTcp i { h with type := .tcpListen },
              0)
      else (n, -catosEinval)

def acceptable (table : TcpTable) (port : Half) : Option Nat :=
  table.findConn fun c => c.used && c.state == .established && c.lport == port && !c.accepted

def closedHandle (n : NetSocks) : Option Nat :=
  (List.range tcpMaxConns).find? fun j => (n.tcpHandles j).type == .closed

def tcpAcceptSocket (h : Nat) (n : NetSocks) : NetSocks × Option Nat :=
  if (n.tcpHandles h).type ≠ .tcpListen then (n, none)
  else
    match (n.tcpHandles h).conn with
    | none => (n, none)
    | some l =>
      match acceptable n.table (n.table.conns l).lport with
      | none => (n, none)
      | some i =>
        match closedHandle n with
        | none => (n, none)
        | some j =>
          let c := n.table.conns i
          ({ (n.setConn i { c with accepted := true }).setTcp j
              { type := .tcpEstab, conn := some i } with
              acceptedFor := Function.update n.acceptedFor j (connId c) }, some j)

def tcpCloseSocket (env : TcpEnv) (h : Nat) (n : NetSocks) : NetSocks :=
  let s := n.tcpHandles h
  match s.type, s.conn with
  | .tcpEstab, some i => (n.setConn i (tcpClose env (startIo (n.table.conns i))).conn).closeTcp h
  | _, _ => n.closeTcp h

def tcpDropPending (port : Half) (table : TcpTable) : TcpTable :=
  { table with
    conns := forRange tcpMaxConns (fun i conns =>
      let c := conns i
      if c.used ∧ !c.accepted ∧ c.lport = port ∧
          (c.state = .synReceived ∨ c.state = .established) then
        Function.update conns i (releaseConn c)
      else conns) table.conns }

def freeTcp (h : Nat) (n : NetSocks) : NetSocks :=
  match (n.tcpHandles h).conn with
  | some i => (n.setConn i { n.table.conns i with used := false }).closeTcp h
  | none => n.closeTcp h

def netSocketClose (env : TcpEnv) (s : SockRef) (n : NetSocks) : NetSocks × Int :=
  match s with
  | .udp i =>
    let h := n.udpHandles i
    if h.type = .udp ∨ h.type = .udpUnbound then
      let u := n.udpSocks h.slot
      (n.setUdp h.slot (if h.owned then { u with used := false, bound := false } else u) i
        { h with type := .closed }, 0)
    else if h.type = .closed then (n, -catosEbadf)
    else (n, -catosEinval)
  | .tcp h =>
    match (n.tcpHandles h).type with
    | .closed => (n, -catosEbadf)
    | .tcpEstab => (tcpCloseSocket env h n, 0)
    | .tcpUnbound => (freeTcp h n, 0)
    | .tcpListen =>
      match (n.tcpHandles h).conn with
      | some i => (freeTcp h { n with table := tcpDropPending (n.table.conns i).lport n.table }, 0)
      | none => (freeTcp h n, 0)
    | _ => (n, -catosEinval)

def tcpAbortSocket (h : Nat) (n : NetSocks) : NetSocks :=
  match (n.tcpHandles h).conn with
  | none => n
  | some i =>
    (n.setConn i { n.table.conns i with
      used := false, state := .closed, rtoDeadline := 0, persistDeadline := 0 }).closeTcp h

def onConn (h : Nat) (n : NetSocks) (run : TcpIo → TcpIo) : NetSocks :=
  match (n.tcpHandles h).type, (n.tcpHandles h).conn with
  | .tcpEstab, some i => n.setConn i (run (startIo (n.table.conns i))).conn
  | _, _ => n

inductive SockOp where
  | openSocket (type : Nat)
  | bind (s : SockRef) (port : Half)
  | accept (h : Fin tcpMaxConns)
  | tcpClose (h : Fin tcpMaxConns)
  | close (s : SockRef)
  | abort (h : Fin tcpMaxConns)
  | send (h : Fin tcpMaxConns) (data : List UInt8)
  | recv (h : Fin tcpMaxConns) (maxLen : Nat)
  | segment (seg : List UInt8) (srcIp : Word)
  | tick

def sockStep (input : TcpEnv × SockOp) (n : NetSocks) : NetSocks :=
  match input.2 with
  | .openSocket type => (netSocketOpen type n).1
  | .bind s port => (netSocketBind s port n).1
  | .accept h => (tcpAcceptSocket h n).1
  | .tcpClose h => tcpCloseSocket input.1 h n
  | .close s => (netSocketClose input.1 s n).1
  | .abort h => tcpAbortSocket h n
  | .send h data => onConn h n fun io => (tcpSend input.1 io data).1
  | .recv h maxLen => onConn h n fun io => (tcpRecv input.1 io maxLen).1
  | .segment seg srcIp => { n with table := (tcpHandle input.1 n.table seg srcIp).1 }
  | .tick => { n with table := (tcpTick input.1 n.table).1 }

end CatOs.Net
