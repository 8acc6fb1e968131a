import CatOs.Lib.Buffer
import CatOs.Lib.Run

/-! The transmit ring of the network card, used by a task that an interrupt may send in between. -/

namespace CatOs.E1000

def txN : Nat := 256

def txBufSize : Nat := 4096

def minFrame : Nat := 60

structure TxFrame where
  bytes : List UInt8
  fits : bytes.length ≤ txBufSize

def TxFrame.padded (frame : TxFrame) : List UInt8 :=
  frame.bytes ++ List.replicate (minFrame - frame.bytes.length) 0

structure TxDesc where
  dd : Bool
  addr : Nat
  len : Nat
  deriving DecidableEq, Repr

/--
The transmit ring with its buffers, and the hardware's head and tail registers.

The frames whose submission succeeded and the frames on the wire are recorded in order.
-/
structure TxRing where
  tx : Buffer TxDesc
  tbuf : Nat → Buffer UInt8
  txNext : Nat
  tdh : Nat
  tdt : Nat
  submitted : List (List UInt8)
  wire : List (List UInt8)

def e1000TxAlloc (ring : TxRing) : Option Nat :=
  if (ring.tx ring.txNext).dd then some ring.txNext else none

def TxRing.fill (ring : TxRing) (n : Nat) (frame : TxFrame) : TxRing :=
  { ring with tbuf := Function.update ring.tbuf n ((ring.tbuf n).write 0 frame.bytes) }

def TxRing.pad (ring : TxRing) (n len : Nat) : TxRing :=
  { ring with
    tbuf := Function.update ring.tbuf n
      ((ring.tbuf n).write len (List.replicate (minFrame - len) 0)) }

def TxRing.publish (ring : TxRing) (n len : Nat) : TxRing :=
  { ring with
    tx := Function.update ring.tx n
      { dd := false, addr := n, len := (max len minFrame) % 65536 }
    tdt := (n + 1) % txN
    txNext := (n + 1) % txN }

def e1000TxSubmit (ring : TxRing) (len : Nat) : TxRing × Bool :=
  let n := ring.txNext
  if (ring.tx n).dd then ((ring.pad n len).publish n len, true) else (ring, false)

def TxRing.transmit (ring : TxRing) : TxRing :=
  if ring.tdh = ring.tdt then ring
  else
    let desc := ring.tx ring.tdh
    { ring with
      tx := Function.update ring.tx ring.tdh { desc with dd := true }
      tdh := (ring.tdh + 1) % txN
      wire := ring.wire ++ [(ring.tbuf desc.addr).read 0 desc.len] }

inductive SendPoint where
  | alloc
  | fill (n : Nat)
  | submit
  deriving DecidableEq, Repr

structure Send where
  point : SendPoint
  frame : TxFrame

def sendStep (send : Send) (ring : TxRing) : TxRing × Option Send :=
  match send.point with
  | .alloc =>
    match e1000TxAlloc ring with
    | none => (ring, none)
    | some n => (ring, some { send with point := .fill n })
  | .fill n => (ring.fill n send.frame, some { send with point := .submit })
  | .submit =>
    let (after, done) := e1000TxSubmit ring send.frame.bytes.length
    -- A send that is told of success counts its frame as submitted.
    (if done then { after with submitted := after.submitted ++ [send.frame.padded] } else after,
      none)

structure TxSystem where
  ring : TxRing
  task : Option Send
  irq : Option Send

inductive TxInput where
  | transmit
  | call (frame : TxFrame)
  | interrupt (frame : TxFrame)
  | step

def txStep (input : TxInput) (sys : TxSystem) : TxSystem :=
  match input with
  | .transmit => { sys with ring := sys.ring.transmit }
  | .call frame =>
    match sys.task, sys.irq with
    | none, none => { sys with task := some { point := .alloc, frame := frame } }
    | _, _ => sys
  | .interrupt frame =>
    match sys.irq with
    | none => { sys with irq := some { point := .alloc, frame := frame } }
    | some _ => sys
  | .step =>
    match sys.irq, sys.task with
    | some send, _ =>
      let (ring, rest) := sendStep send sys.ring
      { sys with ring := ring, irq := rest }
    | none, some send =>
      let (ring, rest) := sendStep send sys.ring
      { sys with ring := ring, task := rest }
    | none, none => sys

def txInit : TxSystem where
  ring :=
    { tx := fun n => { dd := true, addr := n, len := 0 }, tbuf := fun _ _ => 0, txNext := 0,
      tdh := 0, tdt := 0, submitted := [], wire := [] }
  task := none
  irq := none

end CatOs.E1000
