import CatOs.Lib.Run
import CatOs.Net.Tcp.Table

/-! One connection as a system of its own: what can happen to it, and its runs. -/

namespace CatOs.Tcp

inductive TcpOp where
  /-- The application sends. -/
  | send (data : List UInt8)
  /-- The application reads. -/
  | recv (maxLen : Nat)
  /-- A segment of the peer arrives. -/
  | segment (s : TcpIn)
  /-- The clock ticks. -/
  | tick
  /-- The application closes. -/
  | close

def tcpSegment (env : TcpEnv) (s : TcpIn) (io : TcpIo) : TcpIo :=
  if !io.conn.used then io
  else if isStale s io.conn then io.modify releaseConn
  else tcpHandleConn env s io

def tcpStep (input : TcpEnv × TcpOp) (io : TcpIo) : TcpIo :=
  match input.2 with
  | .send data => (tcpSend input.1 io data).1
  | .recv maxLen => (tcpRecv input.1 io maxLen).1
  | .segment s => tcpSegment input.1 s io
  | .tick => tcpTickConn input.1 io
  | .close => tcpClose input.1 io

abbrev TcpRun (allowed : TcpEnv × TcpOp → TcpIo → Prop) : TcpIo → TcpIo → Prop :=
  Run tcpStep allowed

end CatOs.Tcp
