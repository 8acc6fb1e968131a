import CatOs.Lib.Count
import CatOs.Net.HandleRun
import CatOs.Net.Tcp.Unmatched

/-! Listeners and the connections that wait for them, and what each operation does to one slot. -/

namespace CatOs.Net

open CatOs.Tcp

structure NetState where
  socks : NetSocks
  /-- The connection that each of the kernel's sockets listens with, unless it is closed. -/
  tcpSocks : Buffer (Option Nat)

def tcpListenBacklogDefault : Nat := 64

def listenConn (port : Half) (c : TcpConn) : TcpConn :=
  let c := tcpCcInit (tcpTxReset
    { c with
      used := true
      state := .listen
      backlog := tcpListenBacklogDefault
      lport := port
      peerIp := 0
      peerPort := 0
      accepted := false
      dead := false
      rx := { c.rx with rxn := 0, rxn_le := Nat.zero_le _ }
      snd := { c.snd with sndUsed := 0, sndUsed_le := Nat.zero_le _ }
      sndUna := 0
      sndNxt := 0
      sndIsn := 0
      rtoDeadline := 0
      rtoBackoff := noBackoff
      twUntil := 0
      persistDeadline := 0
      persistBackoff := noBackoff })
  { c with
    rtoAttempts := 0
    peerMss := 0
    advWin := 0
    sackOk := false
    sackN := 0
    ooo := forRange tcpOooSlots
      (fun i ooo => Function.update ooo i { ooo i with used := false }) c.ooo
    oooBytes := 0
    testSent := false
    testClosed := false }

def tcpListen (port : Half) (n : NetState) : NetState :=
  match tcpConnFindFree n.socks.table with
  | none => n
  | some i =>
    let socks := n.socks.setConn i (listenConn port (n.socks.table.conns i))
    match (List.range tcpMaxConns).find? fun j => (n.tcpSocks j).isNone with
    -- Without a closed socket the slot listens all the same.
    | none => { n with socks := socks }
    | some j => { socks := socks, tcpSocks := Function.update n.tcpSocks j (some i) }

def clipBacklog (backlog : Nat) : Nat :=
  let backlog := if backlog = 0 then 1 else backlog
  if backlog > tcpMaxConns then tcpMaxConns else backlog

def tcpSetBacklog (s : TcpHandle) (backlog : Nat) (n : NetSocks) : NetSocks × Int :=
  if s.type ≠ .tcpListen then (n, -catosEinval)
  else
    match s.conn with
    | none => (n, -catosEinval)
    | some l => (n.setConn l { n.table.conns l with backlog := clipBacklog backlog }, 0)

def tcpAccept (s : TcpHandle) (n : NetSocks) : NetSocks × Int :=
  if s.type ≠ .tcpListen then (n, -1)
  else
    match s.conn with
    | none => (n, -1)
    | some l =>
      match acceptable n.table (n.table.conns l).lport with
      | none => (n, -1)
      | some i => (n.setConn i { n.table.conns i with accepted := true }, 0)

def acceptSocket (s : TcpHandle) (n : NetSocks) : NetSocks × Option Nat :=
  if s.type ≠ .tcpListen then (n, none)
  else
    match s.conn with
    | none => (n, none)
    | some l =>
      match acceptable n.table (n.table.conns l).lport with
      | none => (n, none)
      | some i =>
        match closedHandle n with
        | none => (n, none)
        | some j =>
          let c := n.table.conns i
          ({ (n.setConn i { c with accepted := true }).setTcp j
              { type := .tcpEstab, conn := some i } with
              acceptedFor := Function.update n.acceptedFor j (connId c) }, some j)

inductive ListenRef where
  | handle (h : Fin tcpMaxConns)
  | kernel (j : Fin tcpMaxConns)
  deriving DecidableEq, Repr

def NetState.sock (n : NetState) : ListenRef → TcpHandle
  | .handle h => n.socks.tcpHandles h
  | .kernel j =>
    match n.tcpSocks j with
    | some l => { type := .tcpListen, conn := some l }
    | none => { type := .closed, conn := none }

def closeKernel (j : Nat) (n : NetState) : NetState :=
  match n.tcpSocks j with
  | none => n
  | some l =>
    let table := tcpDropPending (n.socks.table.conns l).lport n.socks.table
    { socks := { n.socks with table := table.setConn l { table.conns l with used := false } }
      tcpSocks := Function.update n.tcpSocks j none }

def acceptAbort (s : TcpHandle) (n : NetSocks) : NetSocks :=
  let (n, accepted) := acceptSocket s n
  match accepted with
  | none => n
  | some j => tcpAbortSocket j n

inductive ListenOp where
  | sock (op : SockOp)
  | listen (port : Half)
  | setBacklog (s : ListenRef) (backlog : Nat)
  | acceptSocket (s : ListenRef)
  | acceptAbort (s : ListenRef)
  | accept (s : ListenRef)
  | closeKernel (j : Fin tcpMaxConns)

def listenStep (input : TcpEnv × ListenOp) (n : NetState) : NetState :=
  match input.2 with
  | .sock op => { n with socks := sockStep (input.1, op) n.socks }
  | .listen port => tcpListen port n
  | .setBacklog s backlog => { n with socks := (tcpSetBacklog (n.sock s) backlog n.socks).1 }
  | .acceptSocket s => { n with socks := (acceptSocket (n.sock s) n.socks).1 }
  | .acceptAbort s => { n with socks := acceptAbort (n.sock s) n.socks }
  | .accept s => { n with socks := (tcpAccept (n.sock s) n.socks).1 }
  | .closeKernel j => closeKernel j n

/--
The operations that a run consists of.

Every segment has a sender, a backlog is not set below what already waits, and a connection is
given up only where it was just accepted.
-/
def ListenAllowed (input : TcpEnv × ListenOp) (n : NetState) : Prop :=
  match input.2 with
  | .sock (.segment seg srcIp) => ∀ s ∈ tcpParseSegment seg, ¬(srcIp = 0 ∧ s.srcPort = 0)
  | .sock (.abort _) => False
  | .setBacklog s backlog => (n.sock s).type = .tcpListen → ∀ l ∈ (n.sock s).conn,
      tcpPendingCount n.socks.table (n.socks.table.conns l).lport ≤ backlog
  | _ => True

def listenSlot (w : TcpTable) (s : TcpIn) : Option Nat :=
  if Accepts w s then tcpConnFindFree w else none

def openedSlot (w : TcpTable) (seg : List UInt8) (srcIp : Word) : Option Nat :=
  match tcpParseSegment seg with
  | none => none
  | some s =>
    match tcpConnFindPeer w srcIp s.srcPort with
    | none => listenSlot w s
    | some i =>
      if isStale s (w.conns i) then listenSlot (w.setConn i (releaseConn (w.conns i))) s else none

def handedSlot (s : TcpHandle) (n : NetSocks) : Option Nat :=
  match (acceptSocket s n).2 with
  | none => none
  | some j => ((acceptSocket s n).1.tcpHandles j).conn

structure Served where
  net : NetState
  /-- How many connections each slot has held. -/
  opened : Nat → Nat
  /-- The slot of each connection that was handed out, and the how-manieth of the slot it was. -/
  handed : List (Nat × Nat)

def ListenOp.opens (op : ListenOp) (n : NetState) : Option Nat :=
  match op with
  | .sock (.segment seg srcIp) => openedSlot n.socks.table seg srcIp
  | _ => none

def ListenOp.hands (op : ListenOp) (n : NetState) : Option Nat :=
  match op with
  | .sock (.accept h) => handedSlot (n.socks.tcpHandles h) n.socks
  | .acceptSocket s => handedSlot (n.sock s) n.socks
  | .acceptAbort s => handedSlot (n.sock s) n.socks
  | _ => none

def servedStep (input : TcpEnv × ListenOp) (g : Served) : Served :=
  { net := listenStep input g.net
    opened :=
      match input.2.opens g.net with
      | some i => Function.update g.opened i (g.opened i + 1)
      | none => g.opened
    handed :=
      match input.2.hands g.net with
      | some i => g.handed ++ [(i, g.opened i)]
      | none => g.handed }

def bootServed : Served :=
  { net := { socks := emptySocks, tcpSocks := fun _ => none }
    opened := fun _ => 0
    handed := [] }

def Waits (port : Half) (c : TcpConn) : Prop :=
  c.used ∧ !c.accepted ∧ c.lport = port ∧ (c.state = .synReceived ∨ c.state = .established)

instance (port : Half) (c : TcpConn) : Decidable (Waits port c) :=
  inferInstanceAs (Decidable (_ ∧ _))

def Listens (port : Half) (c : TcpConn) : Prop :=
  c.used = true ∧ c.state = .listen ∧ c.lport = port

structure Quiet (c : TcpConn) : Prop where
  peerIp : c.peerIp = 0
  peerPort : c.peerPort = 0
  rtoDeadline : c.rtoDeadline = 0
  persistDeadline : c.persistDeadline = 0

structure SlotOk (c : TcpConn) : Prop where
  accepted : c.accepted = true → c.state ≠ .synReceived
  quiet : c.used = true → c.state.isIdle = true → Quiet c

def Settled (c : TcpConn) : Prop := c.accepted = true ∨ c.state.isOpen = false

structure Calm (c d : TcpConn) : Prop where
  waits : ∀ port, Waits port d → Waits port c
  listens : ∀ port, Listens port d ↔ Listens port c
  backlog : ∀ port, Listens port c → d.backlog = c.backlog
  rest : c.used = true → c.state.isIdle = true → d.used = true ∧ d.state = c.state
  ok : SlotOk d
  settled : Settled c → Settled d

structure Proceeds (c d : TcpConn) : Prop where
  move : StateMove c d
  used : d.used = true → c.used = true
  lport : d.lport = c.lport
  backlog : d.backlog = c.backlog
  accepted : d.accepted = c.accepted ∨ d.accepted = false ∧ d.state ≠ .established
  rest : c.used = true → c.state.isIdle = true → d.used = true ∧ d.state = c.state ∧ Quiet d

section Slots

variable {c d : TcpConn}

theorem Listens.idle {port : Half} (listens : Listens port c) : c.state.isIdle = true := by
  rw [listens.2.1]
  rfl

theorem Waits.isOpen {port : Half} (waits : Waits port c) : c.state.isOpen = true := by
  rcases waits.2.2.2 with state | state <;> rw [state] <;> rfl

theorem Calm.refl (ok : SlotOk c) : Calm c c :=
  { waits := fun _ waits => waits
    listens := fun _ => Iff.rfl
    backlog := fun _ _ => rfl
    rest := fun used _ => ⟨used, rfl⟩
    ok := ok
    settled := fun settled => settled }

theorem Calm.drop (busy : c.state.isIdle = false) (free : d.used = false)
    (closed : d.state = .closed) : Calm c d :=
  { waits := fun port waits => by cases free.symm.trans waits.1
    listens := by
      intro port
      constructor
      · intro listens
        cases free.symm.trans listens.1
      · intro listens
        cases busy.symm.trans listens.idle
    backlog := fun port listens => by cases busy.symm.trans listens.idle
    rest := fun _ idle => by cases busy.symm.trans idle
    ok := { accepted := fun _ waiting => (by cases closed.symm.trans waiting)
            quiet := fun used => by cases free.symm.trans used }
    settled := fun _ => .inr (by rw [closed]; rfl) }

theorem Calm.accept (established : c.state = .established) : Calm c { c with accepted := true } :=
  { waits := fun port waits => by cases waits.2.1
    listens := fun _ => Iff.rfl
    backlog := fun _ _ => rfl
    rest := fun used _ => ⟨used, rfl⟩
    ok := { accepted := fun _ waiting => (by cases established.symm.trans waiting)
            quiet := by
              intro used idle
              have idle : c.state.isIdle = true := idle
              rw [established] at idle
              cases idle }
    settled := fun _ => .inl rfl }

/-- The course of a connection is calm. -/
theorem Proceeds.calm (ok : SlotOk c) (proceeds : Proceeds c d) : Calm c d := by
  -- A slot without a connection stays without one, and any other slot stays with one.
  have idle : d.used = true → d.state.isIdle = true →
      c.used = true ∧ c.state.isIdle = true := by
    intro used idle
    refine ⟨proceeds.used used, ?_⟩
    by_contra busy
    rw [proceeds.move.isIdle (Bool.eq_false_iff.mpr busy) used] at idle
    cases idle
  have taken : d.accepted = true → c.accepted = true := by
    intro taken
    rcases proceeds.accepted with same | ⟨untaken, -⟩
    · exact same.symm.trans taken
    · cases untaken.symm.trans taken
  -- What was accepted stays accepted for as long as it is open.
  have settled : Settled c → Settled d := by
    intro settled
    by_cases opened : d.state.isOpen = true
    · left
      have was : c.accepted = true := by
        rcases settled with was | notOpen
        · exact was
        · rw [proceeds.move.isOpen notOpen] at opened
          cases opened
      rcases proceeds.accepted with same | ⟨-, other⟩
      · exact same.trans was
      · rcases TcpState.eq_of_isOpen opened with waiting | established
        · exact (ok.accepted was (proceeds.move.synReceived waiting)).elim
        · exact (other established).elim
    · exact .inr (Bool.eq_false_iff.mpr opened)
  refine { waits := fun port waits => ?_, listens := fun port => ?_,
           backlog := fun _ _ => proceeds.backlog, rest := fun used idle => ?_,
           ok := { accepted := fun accepted waiting => ?_, quiet := fun used at_ => ?_ },
           settled := settled }
  · have opened : c.state.isOpen = true := by
      by_contra notOpen
      have still := proceeds.move.isOpen (Bool.eq_false_iff.mpr notOpen)
      rw [waits.isOpen] at still
      cases still
    have untaken : (!c.accepted) = true := by
      rw [Bool.not_eq_true', Bool.eq_false_iff]
      intro taken
      rcases settled (.inl taken) with still | notOpen
      · have unaccepted := waits.2.1
        rw [still] at unaccepted
        cases unaccepted
      · rw [waits.isOpen] at notOpen
        cases notOpen
    exact ⟨proceeds.used waits.1, untaken, proceeds.lport.symm.trans waits.2.2.1,
      TcpState.eq_of_isOpen opened⟩
  · constructor
    · intro listens
      obtain ⟨used, there⟩ := idle listens.1 listens.idle
      obtain ⟨-, same, -⟩ := proceeds.rest used there
      exact ⟨used, same.symm.trans listens.2.1, proceeds.lport.symm.trans listens.2.2⟩
    · intro listens
      obtain ⟨used, same, -⟩ := proceeds.rest listens.1 listens.idle
      exact ⟨used, same.trans listens.2.1, proceeds.lport.trans listens.2.2⟩
  · obtain ⟨still, same, -⟩ := proceeds.rest used idle
    exact ⟨still, same⟩
  · exact ok.accepted (taken accepted) (proceeds.move.synReceived waiting)
  · obtain ⟨before, there⟩ := idle used at_
    exact (proceeds.rest before there).2.2

theorem Proceeds.of_stable (move : StateMove c d) (used : d.used = true → c.used = true)
    (lasts : d.stable = c.stable ∨
      d.stable = { c.stable with accepted := false } ∧ d.state ≠ .established)
    (rest : c.used = true → c.state.isIdle = true → d.used = true ∧ d.state = c.state ∧ Quiet d) :
    Proceeds c d := by
  have view : ∀ e : TcpConn, e.lport = e.stable.lport ∧ e.backlog = e.stable.backlog ∧
      e.accepted = e.stable.accepted := fun _ => ⟨rfl, rfl, rfl⟩
  obtain ⟨lport, backlog, accepted⟩ := view d
  rcases lasts with same | ⟨same, other⟩
  · exact { move := move, used := used, lport := by rw [lport, same]; rfl
            backlog := by rw [backlog, same]; rfl, accepted := .inl (by rw [accepted, same]; rfl)
            rest := rest }
  · exact { move := move, used := used, lport := by rw [lport, same]; rfl
            backlog := by rw [backlog, same]; rfl
            accepted := .inr ⟨by rw [accepted, same], other⟩
            rest := rest }

end Slots

section Single

variable (env : TcpEnv) (io : TcpIo)

theorem used_tcpClose : (tcpClose env io).conn.used = io.conn.used :=
  tcpClose_frame env io TcpConn.used (fun _ _ => rfl) (fun _ _ => rfl) fun _ => rfl

theorem not_established_tcpClose : (tcpClose env io).conn.state ≠ .established := by
  intro still
  by_cases established : io.conn.state = .established
  · have notOpen := isOpen_tcpClose_established env established
    rw [still] at notOpen
    cases notOpen
  · rcases state_tcpClose env io with same | closing
    · exact established (same.symm.trans still)
    · rw [still] at closing
      cases closing

theorem lasts_tcpTestTick : (tcpTestTick env io).conn.stable = io.conn.stable ∨
    (tcpTestTick env io).conn.stable = { io.conn.stable with accepted := false } ∧
      (tcpTestTick env io).conn.state ≠ .established := by
  simp only [tcpTestTick]
  split
  · split
    · exact .inl (stable_tcpTestSend env io)
    split
    · exact .inr ⟨stable_tcpClose env io, not_established_tcpClose env io⟩
    · exact .inl rfl
  · exact .inl rfl

theorem lasts_tcpTickConn : (tcpTickConn env io).conn.stable = io.conn.stable ∨
    (tcpTickConn env io).conn.stable = { io.conn.stable with accepted := false } ∧
      (tcpTickConn env io).conn.state ≠ .established := by
  simp only [tcpTickConn]
  split
  · exact .inl rfl
  split
  · split <;> exact .inl rfl
  · -- The timers touch nothing that lasts, and leave the state or release the slot.
    rw [stable_tcpRtoTick, stable_tcpPersistTick]
    refine (lasts_tcpTestTick env io).imp_right fun closed => ⟨closed.1, ?_⟩
    rcases state_tcpRtoTick env (tcpPersistTick env (tcpTestTick env io)) with same | released
    · rw [same, state_tcpPersistTick]
      exact closed.2
    · rw [released]
      decide

theorem quiet_tcpTickConn (idle : io.conn.state.isIdle = true) (quiet : Quiet io.conn) :
    tcpTickConn env io = io := by
  have state : io.conn.state ≠ .established ∧ io.conn.state ≠ .timeWait := by
    constructor <;> intro state <;> rw [state] at idle <;> cases idle
  have tested : tcpTestTick env io = io := by
    simp only [tcpTestTick, state.1, false_and, if_false]
  have probed : tcpPersistTick env io = io := by
    simp [tcpPersistTick, expired, quiet.persistDeadline]
  have repeated : tcpRtoTick env io = io := by
    simp [tcpRtoTick, expired, quiet.rtoDeadline]
  simp only [tcpTickConn, state.2, if_false]
  rw [tested, probed, repeated, ite_self]

end Single

section Courses

variable (env : TcpEnv) {c : TcpConn} (ok : SlotOk c)
include ok

theorem calm_tcpSend (data : List UInt8) : Calm c (tcpSend env (startIo c) data).1.conn := by
  have used := used_tcpSend env (startIo c) data
  refine Proceeds.calm ok (.of_stable (.stays (state_tcpSend ..)) (fun after => used.symm.trans after)
    (.inl (stable_tcpSend ..)) fun inUse idle => ?_)
  -- Nothing is sent on a slot without a connection.
  have same : (tcpSend env (startIo c) data).1.conn = c := by
    have other : (startIo c).conn.state ≠ .established := by
      intro established
      have established : c.state = .established := established
      rw [established] at idle
      cases idle
    simp only [tcpSend, ne_eq, other, not_false_eq_true, if_true]
    split <;> rfl
  rw [same]
  exact ⟨inUse, rfl, ok.quiet inUse idle⟩

theorem calm_tcpRecv (maxLen : Nat) : Calm c (tcpRecv env (startIo c) maxLen).1.conn := by
  have used := used_tcpRecv env (startIo c) maxLen
  have state := state_tcpRecv env (startIo c) maxLen
  refine Proceeds.calm ok (.of_stable (.stays state) (fun after => used.symm.trans after)
    (.inl (stable_tcpRecv ..)) fun inUse idle => ⟨used.trans inUse, state, ?_⟩)
  have quiet := ok.quiet inUse idle
  rcases tcpRecv_conn env (startIo c) maxLen with same | ⟨n, window, taken⟩
  · rw [same]
    exact quiet
  · rw [taken]
    exact { peerIp := quiet.peerIp, peerPort := quiet.peerPort, rtoDeadline := quiet.rtoDeadline
            persistDeadline := quiet.persistDeadline }

theorem calm_tcpClose : Calm c (tcpClose env (startIo c)).conn := by
  have used : (tcpClose env (startIo c)).conn.used = c.used := used_tcpClose env (startIo c)
  have move : StateMove c (tcpClose env (startIo c)).conn := move_tcpStep (startIo c) (env, .close)
  refine Proceeds.calm ok (.of_stable move (fun after => used.symm.trans after)
    (.inr ⟨stable_tcpClose .., not_established_tcpClose env _⟩) fun inUse idle => ?_)
  -- Without a connection only the mark that it was accepted goes.
  have same : (tcpClose env (startIo c)).conn = { c with accepted := false } := by
    have state : (startIo c).conn.state ≠ .established ∧ (startIo c).conn.state ≠ .closeWait := by
      have here : (startIo c).conn.state = c.state := rfl
      rw [here]
      constructor <;> intro state <;> rw [state] at idle <;> cases idle
    simp only [tcpClose, state.1, state.2, if_false]
    rfl
  have quiet := ok.quiet inUse idle
  rw [same]
  exact ⟨inUse, rfl, { peerIp := quiet.peerIp, peerPort := quiet.peerPort
                       rtoDeadline := quiet.rtoDeadline
                       persistDeadline := quiet.persistDeadline }⟩

theorem calm_tcpHandleConn (used : c.used = true) (busy : c.state.isIdle = false) (s : TcpIn) :
    Calm c (tcpHandleConn env s (startIo c)).conn := by
  refine Proceeds.calm ok (.of_stable (move_tcpHandleConn env (startIo c) s) (fun _ => used)
    (.inl (stable_tcpHandleConn ..)) fun _ idle => ?_)
  cases busy.symm.trans idle

end Courses

theorem calm_tcpTickConn (env : TcpEnv) (io : TcpIo) (ok : SlotOk io.conn) :
    Calm io.conn (tcpTickConn env io).conn := by
  by_cases used : io.conn.used = true
  · refine Proceeds.calm ok (.of_stable (move_tcpTickConn env io) (fun _ => used)
      (lasts_tcpTickConn env io) fun _ idle => ?_)
    have quiet := ok.quiet used idle
    rw [quiet_tcpTickConn env io idle quiet]
    exact ⟨used, rfl, quiet⟩
  · have same : tcpTickConn env io = io := by
      simp only [tcpTickConn, used, Bool.not_false, if_true]
    rw [same]
    exact Calm.refl ok

end CatOs.Net
