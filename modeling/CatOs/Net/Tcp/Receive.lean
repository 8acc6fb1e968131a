import CatOs.Net.Tcp.Conn

/-! The receive path: the in-order buffer and the slots that hold data arriving early. -/

namespace CatOs.Tcp

def tcpRxAppend (c : TcpConn) (data : List UInt8) : TcpConn :=
  if fits : c.rx.rxn + data.length ≤ tcpBufSize then
    { c with rx := ⟨c.rx.rxb.write c.rx.rxn data, c.rx.rxn + data.length, fits⟩ }
  else c

def TcpConn.setOoo (c : TcpConn) (i : Nat) (slot : OooSlot) : TcpConn :=
  { c with ooo := Function.update c.ooo i slot }

def dropOoo (c : TcpConn) (i : Nat) : TcpConn :=
  let slot := c.ooo i
  { c.setOoo i { slot with used := false } with oooBytes := c.oooBytes - lenWord slot.len }

def trimOoo (c : TcpConn) (i : Nat) : TcpConn :=
  let slot := c.ooo i
  let fin := slot.seq + lenWord slot.len
  let trim := c.rcvNxt - slot.seq
  { c.setOoo i
      { slot with
        -- The kept bytes move to the front of the slot.
        data := slot.data.copyWithin 0 trim.toNat (slot.len - trim.toNat)
        seq := c.rcvNxt
        len := (fin - c.rcvNxt).toNat % 2 ^ 16
        len_lt := mod_half_lt _ } with
    oooBytes := c.oooBytes - trim }

def deliverOoo (c : TcpConn) (i : Nat) : TcpConn :=
  let slot := c.ooo i
  let c := tcpRxAppend c (slot.data.read 0 slot.len)
  { c.setOoo i { slot with used := false } with
    rcvNxt := c.rcvNxt + lenWord slot.len
    oooBytes := c.oooBytes - lenWord slot.len }

def tryDeliverOoo (i : Nat) (c : TcpConn) (again : Bool) : TcpConn × Bool :=
  -- A slot past a hole waits, and so does one that the receive buffer has no room for.
  if (c.ooo i).seq ≠ c.rcvNxt then (c, again)
  else if c.rx.rxn + (c.ooo i).len > tcpBufSize then (c, again)
  else (deliverOoo c i, true)

def mergeOooSlot (i : Nat) (state : TcpConn × Bool) : TcpConn × Bool :=
  let (c, again) := state
  let slot := c.ooo i
  if !slot.used then (c, again)
  else if !tcpSeqAfter (slot.seq + lenWord slot.len) c.rcvNxt then (dropOoo c i, true)
  else if tcpSeqBefore slot.seq c.rcvNxt then tryDeliverOoo i (trimOoo c i) true
  else tryDeliverOoo i c again

def mergeOooPass (c : TcpConn) : TcpConn × Bool :=
  forRange tcpOooSlots mergeOooSlot (c, false)

/--
Deliver from the out-of-order slots until a pass finds nothing to do.

A pass that does something frees a slot or brings one up to date.
There are too few slots for more passes than the bound allows.
-/
def tcpMergeOoo (c : TcpConn) : TcpConn :=
  doWhile mergeOooPass ((tcpOooSlots + 1) * tcpOooSlots + tcpOooSlots + 1) c

def findOoo (c : TcpConn) (test : OooSlot → Bool) : Option Nat :=
  (List.range tcpOooSlots).find? fun i => test (c.ooo i)

def overlapsOoo (seq : Word) (len : Nat) (slot : OooSlot) : Bool :=
  slot.used && tcpSeqBefore seq (slot.seq + lenWord slot.len) &&
    tcpSeqBefore slot.seq (seq + lenWord len)

def fillOoo (c : TcpConn) (i : Nat) (seq : Word) (len : Nat) (data : List UInt8) : TcpConn :=
  { c.setOoo i
      { seq := seq, len := len % 2 ^ 16, len_lt := mod_half_lt _, used := true
        data := (c.ooo i).data.write 0 data } with
    oooBytes := c.oooBytes + lenWord len }

def tcpQueueOoo (c : TcpConn) (seq : Word) (data : List UInt8) : TcpConn × Bool :=
  let len := data.length
  let fin := seq + lenWord len
  if len = 0 ∨ len > tcpMss ∨ (c.oooBytes + lenWord len).toNat > tcpBufSize then (c, false)
  else if !tcpSeqAfter fin c.rcvNxt then (c, false)
  else
    -- A segment that straddles the next expected byte loses its front.
    let trim := if tcpSeqAfter seq c.rcvNxt then 0 else (c.rcvNxt - seq).toNat
    let seq := seq + lenWord trim
    let data := data.drop trim
    let len := len - trim
    match findOoo c (overlapsOoo seq len), findOoo c fun slot => !slot.used with
    | some _, _ => (c, false)
    | none, none => (c, false)
    | none, some i => (fillOoo c i seq len data, true)

def tcpAcceptData (c : TcpConn) (seq : Word) (data : List UInt8) : TcpConn × Bool :=
  let len := data.length
  if seq ≠ c.rcvNxt then tcpQueueOoo c seq data
  else if len ≤ tcpMss ∧ c.rx.rxn + len ≤ tcpBufSize then
    let c := tcpRxAppend c data
    (tcpMergeOoo { c with rcvNxt := c.rcvNxt + lenWord len }, true)
  else (c, false)

end CatOs.Tcp
