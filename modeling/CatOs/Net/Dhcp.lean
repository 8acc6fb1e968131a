import CatOs.Net.Demux

/-! The address client: its messages, the options it reads, its lease and its timer. -/

namespace CatOs.Net

open Tcp (be32 be32Bytes)

def hton32 (value : Word) : Word := le32 (be32Bytes value)

inductive DhcpState where
  | discover
  | waitOffer
  | waitAck
  | done
  | bound
  | renewing
  | rebinding
  deriving DecidableEq, Repr

inductive DhcpMode where
  | boot
  | renew
  | rebind
  deriving DecidableEq, Repr

structure DhcpConf where
  gMac : Fin 6 → UInt8
  leaseScale : Word
  leaseScale_ne_zero : leaseScale ≠ 0

structure DhcpEnv where
  ticks : Word
  ipId : Half

inductive DhcpOut where
  | udp (dst : Word) (data : List UInt8)
  | arpResolve (ip : Word)
  deriving DecidableEq, Repr

@[ext] structure DhcpClient where
  xid : Word
  offer : Word
  server : Word
  mask : Word
  gw : Word
  last : Word
  wait : Word
  ciaddr : Word
  state : DhcpState
  retries : UInt8
  t1Due : Word
  t2Due : Word
  expireDue : Word
  timed : Bool
  gIp : Word
  gGw : Word
  gMask : Word
  gDns : Word
  out : List DhcpOut
  deriving DecidableEq, Repr

def dhcpRetryBaseSecs : Word := 2

def dhcpRetryCapSecs : Word := 30

def dhcpSecsToTicks (conf : DhcpConf) (secs : Word) : Word :=
  (if secs > 42949672 then 42949672 else secs) * 100 / conf.leaseScale

structure LeaseTimes where
  lt : Word
  r1 : Word
  r2 : Word
  deriving DecidableEq, Repr

def leaseTimes (conf : DhcpConf) (leaseS t1S t2S : Word) : LeaseTimes :=
  let secs := dhcpSecsToTicks conf leaseS
  let lt := if secs = 0 then 1 else secs
  let r1 := if t1S ≠ 0 then dhcpSecsToTicks conf t1S else lt / 2
  let r2 := if t2S ≠ 0 then dhcpSecsToTicks conf t2S else lt - lt / 8
  let r2 := if r2 > lt then lt else r2
  let r2 := if r2 = 0 then 1 else r2
  let r1 := if r1 > r2 then r2 else r1
  let r1 := if r1 = 0 then 1 else r1
  { lt := lt, r1 := r1, r2 := r2 }

def dhcpArmLease (conf : DhcpConf) (env : DhcpEnv) (leaseS t1S t2S : Word) (c : DhcpClient) :
    DhcpClient :=
  if leaseS = 0 then { c with timed := false }
  else
    let times := leaseTimes conf leaseS t1S t2S
    { c with
      t1Due := env.ticks + times.r1
      t2Due := env.ticks + times.r2
      expireDue := env.ticks + times.lt
      timed := true }

def dhcpBackoffNext (w : Word) : Word :=
  let w := w * 7 / 4
  if w > dhcpRetryCapSecs then dhcpRetryCapSecs else w

def dhcpMessage (conf : DhcpConf) (type : UInt8) (mode : DhcpMode) (c : DhcpClient) :
    List UInt8 :=
  let ciaddr := if mode ≠ .boot then le32Bytes c.ciaddr else [0, 0, 0, 0]
  -- Only a first request names the server and the address that it asks for.
  let asked :=
    if type = 3 ∧ mode = .boot then
      [54, 4] ++ le32Bytes c.server ++ [50, 4] ++ le32Bytes c.offer
    else []
  let fields :=
    [1, 1, 6, 0] ++ be32Bytes c.xid ++ [0, 0, 0x80, 0] ++ ciaddr ++ List.replicate 12 0 ++
      List.ofFn conf.gMac ++ List.replicate 202 0 ++
      [99, 130, 83, 99, 53, 1, type] ++ asked ++ [55, 3, 1, 3, 6, 255]
  fields ++ List.replicate (548 - fields.length) 0

def dhcpSend (conf : DhcpConf) (type : UInt8) (mode : DhcpMode) (c : DhcpClient) : DhcpClient :=
  let dst := if mode = .renew then c.server else 0xFFFFFFFF
  { c with out := c.out ++ [.udp dst (dhcpMessage conf type mode c)] }

def clearNet (c : DhcpClient) : DhcpClient :=
  { c with gIp := 0, gGw := 0, gMask := 0, gDns := 0 }

def nextXid (env : DhcpEnv) (xid : Word) : Word :=
  xid ^^^ (env.ipId.zeroExtend 32 + 0x9e3779b9)

def dhcpLeaseExpired (conf : DhcpConf) (env : DhcpEnv) (c : DhcpClient) : DhcpClient :=
  dhcpSend conf 1 .boot
    { clearNet c with
      ciaddr := 0
      offer := 0
      timed := false
      retries := 0
      xid := nextXid env c.xid
      state := .waitOffer
      wait := dhcpRetryBaseSecs
      last := env.ticks }

structure DhcpOption where
  code : UInt8
  data : List UInt8
  deriving DecidableEq, Repr

/--
The options that the client reads off the bytes after the fixed part of a message.

The walk ends at the end mark, or at the first option that does not fit in the message.
-/
def dhcpOptions : Nat → List UInt8 → List DhcpOption
  | 0, _ => []
  | _ + 1, [] => []
  | fuel + 1, code :: rest =>
    if code = 255 then []
    else if code = 0 then dhcpOptions fuel rest
    else
      match rest with
      | [] => []
      | l :: body =>
        if body.length < l.toNat then []
        else
          { code := code, data := body.take l.toNat } :: dhcpOptions fuel (body.drop l.toNat)

structure DhcpParsed where
  mt : UInt8
  opt51 : Word
  opt58 : Word
  opt59 : Word
  server : Word
  mask : Word
  gw : Word
  dns : Word
  deriving DecidableEq, Repr

def readOption (p : DhcpParsed) (o : DhcpOption) : DhcpParsed :=
  let l := o.data.length
  if o.code = 53 ∧ l ≠ 0 then { p with mt := o.data.getD 0 0 }
  else if o.code = 51 ∧ l = 4 then { p with opt51 := be32 o.data }
  else if o.code = 58 ∧ l = 4 then { p with opt58 := be32 o.data }
  else if o.code = 59 ∧ l = 4 then { p with opt59 := be32 o.data }
  else if o.code = 54 ∧ l = 4 then { p with server := le32 o.data }
  else if o.code = 1 ∧ l = 4 then { p with mask := le32 o.data }
  else if o.code = 3 ∧ l ≥ 4 then { p with gw := le32 o.data }
  else if o.code = 6 ∧ l = 4 then { p with dns := le32 o.data }
  else p

def datagramOptions (d : List UInt8) : List DhcpOption :=
  dhcpOptions d.length (d.drop 240)

def dhcpParse (d : List UInt8) (c : DhcpClient) : DhcpParsed :=
  (datagramOptions d).foldl readOption
    { mt := 0, opt51 := 0, opt58 := 0, opt59 := 0
      server := c.server, mask := c.mask, gw := c.gw, dns := c.gDns }

def dhcpReply (conf : DhcpConf) (d : List UInt8) (c : DhcpClient) : Bool :=
  d.length ≥ 240 && d.take 3 == [2, 1, 6] && be32 (d.drop 4) == c.xid &&
    (d.drop 28).take 6 == List.ofFn conf.gMac && (d.drop 236).take 4 == [99, 130, 83, 99]

def storeOptions (p : DhcpParsed) (c : DhcpClient) : DhcpClient :=
  { c with server := p.server, mask := p.mask, gw := p.gw, gDns := p.dns }

def takeOffer (conf : DhcpConf) (env : DhcpEnv) (d : List UInt8) (c : DhcpClient) :
    DhcpClient :=
  { dhcpSend conf 3 .boot { c with offer := le32 (d.drop 16), state := .waitAck } with
    last := env.ticks
    wait := dhcpRetryBaseSecs }

def takeAck (conf : DhcpConf) (env : DhcpEnv) (d : List UInt8) (p : DhcpParsed)
    (c : DhcpClient) : DhcpClient :=
  let address := le32 (d.drop 16)
  let armed :=
    dhcpArmLease conf env p.opt51 p.opt58 p.opt59
      { c with
        offer := address, ciaddr := address, gIp := address, gGw := c.gw, gMask := c.mask }
  -- A lease without a length leaves the client where it never renews.
  { armed with state := if armed.timed then .bound else .done }

def awaitsAck (state : DhcpState) : Bool :=
  state == .waitAck || state == .renewing || state == .rebinding

def dhcpHandle (conf : DhcpConf) (env : DhcpEnv) (d : List UInt8) (c : DhcpClient) :
    DhcpClient :=
  if dhcpReply conf d c then
    let p := dhcpParse d c
    -- The options are stored before the type of the message is looked at.
    let stored := storeOptions p c
    if p.mt = 6 then dhcpLeaseExpired conf env stored
    else if p.mt = 2 ∧ c.state = .waitOffer then takeOffer conf env d stored
    else if p.mt = 5 ∧ awaitsAck c.state then takeAck conf env d p stored
    else stored
  else c

def dueBy (now deadline : Word) : Bool :=
  0 ≤ (now - deadline).toInt

def retryDue (env : DhcpEnv) (c : DhcpClient) : Bool :=
  c.wait != 0 && env.ticks - c.last ≥ c.wait * 100

def repeatRequest (conf : DhcpConf) (env : DhcpEnv) (mode : DhcpMode) (c : DhcpClient) :
    DhcpClient :=
  dhcpSend conf 3 mode { c with wait := dhcpBackoffNext c.wait, last := env.ticks }

def startRequest (conf : DhcpConf) (env : DhcpEnv) (state : DhcpState) (mode : DhcpMode)
    (c : DhcpClient) : DhcpClient :=
  dhcpSend conf 3 mode
    { c with
      state := state
      retries := 0
      wait := dhcpRetryBaseSecs
      last := env.ticks
      xid := nextXid env c.xid }

def leaseTick (conf : DhcpConf) (env : DhcpEnv) (c : DhcpClient) : DhcpClient :=
  match c.state with
  | .bound =>
    if dueBy env.ticks c.expireDue then dhcpLeaseExpired conf env c
    else if dueBy env.ticks c.t1Due then
      -- The address of the server is looked up first, so that the request can leave.
      startRequest conf env .renewing .renew { c with out := c.out ++ [.arpResolve c.server] }
    else c
  | .renewing =>
    if dueBy env.ticks c.expireDue then dhcpLeaseExpired conf env c
    else if dueBy env.ticks c.t2Due then startRequest conf env .rebinding .rebind c
    else if retryDue env c then repeatRequest conf env .renew c
    else c
  | .rebinding =>
    if dueBy env.ticks c.expireDue then dhcpLeaseExpired conf env c
    else if retryDue env c then repeatRequest conf env .rebind c
    else c
  | .discover | .waitOffer | .waitAck | .done => c

def fallbackIp : Word := hton32 0x0A00020F

def fallback (c : DhcpClient) : DhcpClient :=
  { c with
    wait := 0
    gIp := fallbackIp
    gGw := hton32 0x0A000202
    gMask := hton32 0xFFFFFF00
    gDns := hton32 0x0A000203
    state := .done
    timed := false }

def acquiring (state : DhcpState) : Bool :=
  state == .waitOffer || state == .waitAck

def acquireTick (conf : DhcpConf) (env : DhcpEnv) (c : DhcpClient) : DhcpClient :=
  if acquiring c.state && retryDue env c then
    let counted := { c with retries := c.retries + 1 }
    if c.retries ≥ 6 then fallback counted
    else
      { dhcpSend conf 1 .boot { counted with xid := nextXid env c.xid } with
        state := .waitOffer
        wait := 2
        last := env.ticks }
  else c

def dhcpTick (conf : DhcpConf) (env : DhcpEnv) (c : DhcpClient) : DhcpClient :=
  acquireTick conf env (leaseTick conf env c)

def dhcpStart (conf : DhcpConf) (env : DhcpEnv) (c : DhcpClient) : DhcpClient :=
  { dhcpSend conf 1 .boot
      { c with
        xid := 0x12340000 ^^^ env.ipId.zeroExtend 32
        retries := 0
        wait := 2
        state := .discover } with
    last := env.ticks
    state := .waitOffer
    ciaddr := 0
    t1Due := 0
    t2Due := 0
    expireDue := 0
    timed := false }

def netInit (conf : DhcpConf) (env : DhcpEnv) (c : DhcpClient) : DhcpClient :=
  dhcpStart conf env (clearNet c)

end CatOs.Net
