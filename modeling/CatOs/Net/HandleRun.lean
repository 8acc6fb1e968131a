import CatOs.Net.HandleLaws

/-! When every handle keeps the connection that it was opened or accepted for. -/

namespace CatOs.Net

open CatOs.Tcp
open Function

def KeepsHandles (input : TcpEnv × SockOp) (n : NetSocks) : Prop :=
  match input.2 with
  | .openSocket type => type = 1 → ∀ i ∈ tcpConnFindFree n.table, (n.tcpHandles i).type = .closed
  | .abort h => (n.tcpHandles h).type = .closed → ∀ i ∈ (n.tcpHandles h).conn, ¬n.Refers i
  | .segment seg srcIp =>
    ∀ s ∈ tcpParseSegment seg, ∀ i ∈ tcpConnFindPeer n.table srcIp s.srcPort, n.Refers i →
      isStale s (n.table.conns i) = false ∧
        (tcpHandleConn input.1 s (startIo (n.table.conns i))).conn.used = true
  | .tick => ∀ h : Fin tcpMaxConns, ∀ i ∈ n.target h, ((tcpTick input.1 n.table).1.conns i).used = true
  | _ => True

instance (input : TcpEnv × SockOp) (n : NetSocks) : Decidable (KeepsHandles input n) :=
  match input with
  | (_, .openSocket _) => inferInstanceAs (Decidable (_ → ∀ i ∈ _, _))
  | (_, .abort _) => inferInstanceAs (Decidable (_ → ∀ i ∈ _, _))
  | (_, .segment _ _) => inferInstanceAs (Decidable (∀ s ∈ _, ∀ i ∈ _, _ → _ ∧ _))
  | (_, .tick) => inferInstanceAs (Decidable (∀ _ : Fin tcpMaxConns, ∀ i ∈ _, _))
  | (_, .bind _ _) | (_, .accept _) | (_, .tcpClose _) | (_, .close _) | (_, .send _ _)
  | (_, .recv _ _) => inferInstanceAs (Decidable True)

def SockOp.Touches : SockOp → SockRef → Prop
  | .bind s _, r => s = r
  | .close s, r => s = r
  | .tcpClose h, r => .tcp h = r
  | .abort h, r => .tcp h = r
  | _, _ => False

section Operations

variable {n : NetSocks} {env : TcpEnv}

theorem HandlesOk.free (ok : HandlesOk n) {i : Nat} (found : tcpConnFindFree n.table = some i) :
    ¬n.Refers i := by
  rintro ⟨h, points⟩
  have unused := (TcpTable.findConn_some found).2
  have held := ok.held h i points
  rw [held.used] at unused
  cases unused

theorem HandlesOk.waiting (ok : HandlesOk n) {i : Nat} {port : Half}
    (found : acceptable n.table port = some i) : ¬n.Refers i := by
  rintro ⟨h, points⟩
  have test := (TcpTable.findConn_some found).2
  simp only [Bool.and_eq_true, beq_iff_eq, Bool.not_eq_true'] at test
  obtain ⟨⟨⟨-, established⟩, -⟩, unaccepted⟩ := test
  rcases (ok.held h i points).settled with taken | notOpen
  · rw [unaccepted] at taken
    cases taken
  · rw [established] at notOpen
    cases notOpen

theorem closedHandle_some {j : Nat} (found : closedHandle n = some j) :
    (n.tcpHandles j).type = .closed := by
  have test := List.find?_some found
  simpa using test

theorem HandlesOk.netSocketOpen (ok : HandlesOk n) (type : Nat) :
    HandlesOk (netSocketOpen type n).1 := by
  simp only [CatOs.Net.netSocketOpen]
  split
  · split
    · exact ok
    · rename_i i found
      -- The new handle is at the index of its socket, which is in use from now on.
      refine { distinct := ok.distinct, held := ok.held, same := ok.same, udp := fun j opened => ?_ }
      by_cases here : j = i
      · subst here
        simp only [NetSocks.setUdp, update_self, and_self]
      · simp only [NetSocks.setUdp, update_of_ne here] at opened ⊢
        exact ok.udp j opened
  split
  · split
    · exact ok
    · rename_i i found
      have free := ok.free found
      refine (ok.setConn free _).setTcp free ?_ fun established => ?_
      · show Held ((n.table.setConn i _).conns i)
        rw [TcpTable.setConn_self]
        exact { used := rfl, settled := .inr rfl }
      · cases established
  · exact ok

theorem HandlesOk.tcpAcceptSocket (ok : HandlesOk n) (h : Nat) :
    HandlesOk (tcpAcceptSocket h n).1 := by
  simp only [CatOs.Net.tcpAcceptSocket]
  split
  · exact ok
  split
  · exact ok
  split
  · exact ok
  rename_i i waits
  split
  · exact ok
  rename_i j found
  have free := ok.waiting waits
  have closed := closedHandle_some found
  have noted := (ok.setConn free { n.table.conns i with accepted := true }).setAcceptedFor closed
    (connId (n.table.conns i))
  have used := (TcpTable.findConn_some waits).2
  simp only [Bool.and_eq_true] at used
  refine noted.setTcp free ?_ fun _ => ?_
  · show Held ((n.table.setConn i _).conns i)
    rw [TcpTable.setConn_self]
    exact { used := used.1.1.1, settled := .inl rfl }
  · show connId ((n.table.setConn i _).conns i) = update n.acceptedFor j _ j
    rw [TcpTable.setConn_self, update_self]
    rfl

theorem HandlesOk.replace (ok : HandlesOk n) {h : Fin tcpMaxConns} {i : Nat}
    (points : n.target h = some i) {c : TcpConn} (held : Held c) (type : SockType)
    (other : type ≠ .tcpEstab) :
    HandlesOk ((n.setConn i c).setTcp h { type := type, conn := some i }) := by
  have free := ok.unreferred points
  have fresh : HandlesOk (((n.closeTcp h).setConn i c).setTcp h { type := type, conn := some i }) :=
    ((ok.closeTcp h).setConn free c).setTcp free (by
      show Held ((n.table.setConn i c).conns i)
      rw [TcpTable.setConn_self]
      exact held) fun established => (other established).elim
  -- Closing the handle first is undone by setting it.
  have same : ((n.closeTcp h).setConn i c).setTcp h { type := type, conn := some i } =
      (n.setConn i c).setTcp h { type := type, conn := some i } := by
    simp only [NetSocks.closeTcp, NetSocks.setTcp, NetSocks.setConn, update_idem]
  exact same ▸ fresh

theorem HandlesOk.close (ok : HandlesOk n) {h : Fin tcpMaxConns} {i : Nat}
    (points : n.target h = some i) (c : TcpConn) : HandlesOk ((n.setConn i c).closeTcp h) :=
  (ok.closeTcp h).setConn (ok.unreferred points) c

theorem held_bindConn {c : TcpConn} (used : c.used = true) (port : Half) :
    Held (bindConn port c) := by
  refine { used := ?_, settled := .inr ?_ }
  · have same : (bindConn port c).used = c.used := by simp only [bindConn, tcpCcInit, tcpTxReset]
    rw [same, used]
  · have state : (bindConn port c).state = .listen := by
      simp only [bindConn, tcpCcInit, tcpTxReset]
    rw [state]
    rfl

theorem HandlesOk.setUdp (ok : HandlesOk n) {i : Fin udpSlots} {sock : UdpSock}
    {handle : UdpHandle} (slot : (n.udpHandles i).slot = i)
    (backed : handle.type ≠ .closed → handle.slot = i ∧ sock.used = true) :
    HandlesOk (n.setUdp (n.udpHandles i).slot sock i handle) := by
  refine { distinct := ok.distinct, held := ok.held, same := ok.same, udp := fun j opened => ?_ }
  rw [slot] at opened ⊢
  by_cases here : j = i
  · subst here
    simp only [NetSocks.setUdp, update_self] at opened ⊢
    exact backed opened
  · simp only [NetSocks.setUdp, update_of_ne here] at opened ⊢
    exact ok.udp j opened

theorem HandlesOk.netSocketBind (ok : HandlesOk n) (s : SockRef) (port : Half) :
    HandlesOk (netSocketBind s port n).1 := by
  simp only [CatOs.Net.netSocketBind]
  split
  · exact ok
  split
  · rename_i i
    split
    · rename_i unbound
      split
      · exact ok
      · obtain ⟨slot, used⟩ := ok.udp i (by rw [unbound]; decide)
        refine ok.setUdp slot fun _ => ⟨slot, ?_⟩
        rw [slot]
        exact used
    · exact ok
  · rename_i h
    split
    · rename_i unbound
      split
      · exact ok
      split
      · exact ok
      · rename_i i conn
        have points : n.target h = some i := by
          rw [target_of_open (by rw [unbound]; decide), conn]
        have replaced := ok.replace points
          (held_bindConn (ok.held h i points).used port) .tcpListen (by decide)
        rw [conn]
        exact replaced
    · exact ok

theorem tcpDropPending_held {table : TcpTable} {i : Nat} (held : Held (table.conns i))
    (port : Half) : (tcpDropPending port table).conns i = table.conns i := by
  unfold tcpDropPending
  dsimp only
  generalize tcpMaxConns = count
  refine forRange_invariant (fun _ (conns : Buffer TcpConn) => conns i = table.conns i) rfl
    fun k conns _ same => ?_
  split
  · rename_i waits
    rw [update_of_ne, same]
    rintro rfl
    -- A held connection was accepted already, or it is in no state to be accepted.
    rw [same] at waits
    obtain ⟨-, unaccepted, -, state⟩ := waits
    rcases held.settled with taken | notOpen
    · rw [taken] at unaccepted
      cases unaccepted
    · rcases state with state | state <;> rw [state] at notOpen <;> cases notOpen
  · exact same

section HandlesOk

variable (ok : HandlesOk n)
include ok

theorem HandlesOk.freeTcp {h : Fin tcpMaxConns}
    (opened : (n.tcpHandles h).type ≠ .closed) : HandlesOk (freeTcp h n) := by
  simp only [CatOs.Net.freeTcp]
  split
  · rename_i i conn
    exact ok.close ((target_of_open opened).trans conn) _
  · exact ok.closeTcp h

theorem HandlesOk.tcpCloseSocket (h : Fin tcpMaxConns) :
    HandlesOk (tcpCloseSocket env h n) := by
  simp only [CatOs.Net.tcpCloseSocket]
  split
  · rename_i i established conn
    exact ok.close ((target_of_open (by rw [established]; decide)).trans conn) _
  · exact ok.closeTcp h

theorem HandlesOk.netSocketClose (s : SockRef) :
    HandlesOk (netSocketClose env s n).1 := by
  simp only [CatOs.Net.netSocketClose]
  split
  · rename_i i
    split
    · rename_i opened
      have slot := (ok.udp i (by rcases opened with type | type <;> rw [type] <;> decide)).1
      exact ok.setUdp slot fun absurd => (absurd rfl).elim
    split
    · exact ok
    · exact ok
  · rename_i h
    split
    · exact ok
    · exact ok.tcpCloseSocket h
    · rename_i unbound
      exact ok.freeTcp (by rw [unbound]; decide)
    · rename_i listening
      split
      · rename_i i conn
        -- The connections that go are exactly those without a handle.
        have dropped : HandlesOk
            { n with table := tcpDropPending (n.table.conns i).lport n.table } := by
          apply ok.setTable
          rintro j ⟨g, points⟩
          have held := ok.held g j points
          rw [tcpDropPending_held held]
          exact ⟨held, rfl⟩
        exact dropped.freeTcp (by rw [listening]; decide)
      · exact ok.freeTcp (by rw [listening]; decide)
    · exact ok

theorem HandlesOk.tcpAbortSocket {h : Fin tcpMaxConns}
    (stale : (n.tcpHandles h).type = .closed → ∀ i ∈ (n.tcpHandles h).conn, ¬n.Refers i) :
    HandlesOk (tcpAbortSocket h n) := by
  simp only [CatOs.Net.tcpAbortSocket]
  split
  · exact ok
  · rename_i i conn
    by_cases closed : (n.tcpHandles h).type = .closed
    · exact (ok.setConn (stale closed i conn) _).closeTcp h
    · exact ok.close ((target_of_open closed).trans conn) _

theorem HandlesOk.onConn (h : Fin tcpMaxConns) {run : TcpIo → TcpIo}
    (stable : ∀ io, (run io).conn.stable = io.conn.stable)
    (used : ∀ io, (run io).conn.used = io.conn.used)
    (state : ∀ io, (run io).conn.state = io.conn.state) : HandlesOk (onConn h n run) := by
  simp only [CatOs.Net.onConn]
  split
  · rename_i i established conn
    have points : n.target h = some i := (target_of_open (by rw [established]; decide)).trans conn
    have held := ok.held h i points
    apply ok.setTable
    rintro j ⟨g, reaches⟩
    by_cases here : j = i
    · subst here
      rw [TcpTable.setConn_self]
      refine ⟨held.of_stable (stable _) ((used _).trans held.used) fun notOpen => ?_, ?_⟩
      · rw [state]
        exact notOpen
      · exact connId_of_stable (stable _)
    · rw [TcpTable.setConn_of_ne here]
      exact ⟨ok.held g j reaches, rfl⟩
  · exact ok

theorem HandlesOk.tcpHandle {seg : List UInt8} {srcIp : Word}
    (keeps : ∀ s ∈ tcpParseSegment seg, ∀ i ∈ tcpConnFindPeer n.table srcIp s.srcPort,
      n.Refers i → isStale s (n.table.conns i) = false ∧
        (tcpHandleConn env s (startIo (n.table.conns i))).conn.used = true) :
    HandlesOk { n with table := (tcpHandle env n.table seg srcIp).1 } := by
  apply ok.setTable
  rintro i ⟨h, points⟩
  have held := ok.held h i points
  cases parsed : tcpParseSegment seg with
  | none =>
    have dropped : (CatOs.Tcp.tcpHandle env n.table seg srcIp).1 = n.table := by
      simp only [CatOs.Tcp.tcpHandle, parsed]
    rw [dropped]
    exact ⟨held, rfl⟩
  | some s =>
    by_cases found : tcpConnFindPeer n.table srcIp s.srcPort = some i
    · -- The segment is for this connection, and leaves it in use.
      obtain ⟨fresh, used⟩ := keeps s parsed i found ⟨h, points⟩
      have handled : (CatOs.Tcp.tcpHandle env n.table seg srcIp).1.conns i =
          (tcpHandleConn env s (startIo (n.table.conns i))).conn := by
        simp only [CatOs.Tcp.tcpHandle, parsed, found, fresh, Bool.false_eq_true, if_false]
        exact TcpTable.setConn_self ..
      rw [handled]
      have stable := stable_tcpHandleConn env (startIo (n.table.conns i)) s
      refine ⟨held.of_stable stable used fun notOpen => ?_, connId_of_stable stable⟩
      exact (move_tcpHandleConn env (startIo (n.table.conns i)) s).isOpen notOpen
    · rw [tcpHandle_frame env seg srcIp parsed held.used found]
      exact ⟨held, rfl⟩

theorem HandlesOk.tcpTick (keeps : ∀ h : Fin tcpMaxConns, ∀ i ∈ n.target h,
      ((tcpTick env n.table).1.conns i).used = true) :
    HandlesOk { n with table := (tcpTick env n.table).1 } := by
  apply ok.setTable
  rintro i ⟨h, points⟩
  have held := ok.held h i points
  have used := keeps h i points
  rcases tcpTick_conns env n.table i with same | ⟨calls, ticked⟩
  · rw [same]
    exact ⟨held, rfl⟩
  · obtain ⟨identity, settled⟩ := settled_tcpTickConn env
      { startIo (n.table.conns i) with calls := calls } held.settled
    rw [ticked] at used ⊢
    exact ⟨{ used := used, settled := settled }, identity⟩

theorem HandlesOk.sockStep {input : TcpEnv × SockOp}
    (keeps : KeepsHandles input n) : HandlesOk (sockStep input n) := by
  obtain ⟨env, op⟩ := input
  cases op with
  | openSocket type => exact ok.netSocketOpen type
  | bind s port => exact ok.netSocketBind s port
  | accept h => exact ok.tcpAcceptSocket h
  | tcpClose h => exact ok.tcpCloseSocket h
  | close s => exact ok.netSocketClose s
  | abort h => exact ok.tcpAbortSocket keeps
  | send h data =>
    exact ok.onConn h (fun io => stable_tcpSend env io data) (fun io => used_tcpSend env io data)
      fun io => state_tcpSend env io data
  | recv h maxLen =>
    exact ok.onConn h (fun io => stable_tcpRecv env io maxLen)
      (fun io => used_tcpRecv env io maxLen) fun io => state_tcpRecv env io maxLen
  | segment seg srcIp => exact ok.tcpHandle keeps
  | tick => exact ok.tcpTick keeps

end HandlesOk

end Operations

section Unchanged

variable {n : NetSocks}

theorem tcpHandles_freeTcp {g h : Nat} (other : g ≠ h) :
    (freeTcp h n).tcpHandles g = n.tcpHandles g := by
  simp only [freeTcp]
  split <;> exact tcpHandles_closeTcp_of_ne other

theorem tcpHandles_tcpCloseSocket {env : TcpEnv} {g h : Nat} (other : g ≠ h) :
    (tcpCloseSocket env h n).tcpHandles g = n.tcpHandles g := by
  simp only [tcpCloseSocket]
  split <;> exact tcpHandles_closeTcp_of_ne other

theorem tcpHandles_sockStep {input : TcpEnv × SockOp}
    (keeps : KeepsHandles input n) {h : Fin tcpMaxConns}
    (opened : (n.tcpHandles h).type ≠ .closed) (other : ¬input.2.Touches (.tcp h)) :
    (CatOs.Net.sockStep input n).tcpHandles h = n.tcpHandles h := by
  obtain ⟨env, op⟩ := input
  -- Two pointers to different handles have different indices.
  have apart : ∀ {g : Fin tcpMaxConns}, ¬SockRef.tcp g = SockRef.tcp h → h.val ≠ g.val := by
    intro g differ same
    exact differ (congrArg SockRef.tcp (Fin.ext same.symm))
  cases op with
  | openSocket type =>
    simp only [CatOs.Net.sockStep, CatOs.Net.netSocketOpen]
    split
    · split <;> rfl
    split
    · rename_i stream
      split
      · rfl
      · rename_i i found
        refine tcpHandles_setTcp_of_ne ?_ _
        rintro rfl
        exact opened (keeps stream h.val found)
    · rfl
  | bind s port =>
    simp only [CatOs.Net.sockStep, CatOs.Net.netSocketBind]
    split
    · rfl
    split
    · split
      · split <;> rfl
      · rfl
    · split
      · split
        · rfl
        split
        · rfl
        · exact tcpHandles_setTcp_of_ne (apart other) _
      · rfl
  | accept g =>
    simp only [CatOs.Net.sockStep, CatOs.Net.tcpAcceptSocket]
    split
    · rfl
    split
    · rfl
    split
    · rfl
    split
    · rfl
    · rename_i j found
      refine tcpHandles_setTcp_of_ne ?_ _
      rintro rfl
      exact opened (closedHandle_some found)
  | tcpClose g => exact tcpHandles_tcpCloseSocket (apart other)
  | close s =>
    simp only [CatOs.Net.sockStep, CatOs.Net.netSocketClose]
    split
    · split
      · rfl
      split <;> rfl
    · split
      · rfl
      · exact tcpHandles_tcpCloseSocket (apart other)
      · exact tcpHandles_freeTcp (apart other)
      · split
        · exact tcpHandles_freeTcp (apart other)
        · exact tcpHandles_freeTcp (apart other)
      · rfl
  | abort g =>
    simp only [CatOs.Net.sockStep, CatOs.Net.tcpAbortSocket]
    split
    · rfl
    · exact tcpHandles_closeTcp_of_ne (apart other)
  | send g data | recv g maxLen =>
    simp only [CatOs.Net.sockStep, CatOs.Net.onConn]
    split <;> rfl
  | segment seg srcIp => rfl
  | tick => rfl

theorem HandlesOk.udpHandles_sockStep (ok : HandlesOk n) {input : TcpEnv × SockOp}
    {i : Fin udpSlots} (opened : (n.udpHandles i).type ≠ .closed)
    (other : ¬input.2.Touches (.udp i)) :
    (CatOs.Net.sockStep input n).udpHandles i = n.udpHandles i := by
  obtain ⟨env, op⟩ := input
  have closes : ∀ h, (CatOs.Net.tcpCloseSocket env h n).udpHandles = n.udpHandles := by
    intro h
    simp only [CatOs.Net.tcpCloseSocket]
    split <;> rfl
  have frees : ∀ h m, (CatOs.Net.freeTcp h m).udpHandles = m.udpHandles := by
    intro h m
    simp only [CatOs.Net.freeTcp]
    split <;> rfl
  cases op with
  | openSocket type =>
    simp only [CatOs.Net.sockStep, CatOs.Net.netSocketOpen]
    split
    · split
      · rfl
      · -- The new handle takes the place of one whose socket is not in use.
        rename_i j found
        refine update_of_ne ?_ _ _
        rintro rfl
        have unused := List.find?_some found
        rw [(ok.udp i opened).2] at unused
        cases unused
    split
    · split <;> rfl
    · rfl
  | bind s port =>
    simp only [CatOs.Net.sockStep, CatOs.Net.netSocketBind]
    split
    · rfl
    split
    · rename_i j
      split
      · split
        · rfl
        · refine update_of_ne ?_ _ _
          rintro rfl
          exact other rfl
      · rfl
    · split
      · split
        · rfl
        split <;> rfl
      · rfl
  | accept g =>
    simp only [CatOs.Net.sockStep, CatOs.Net.tcpAcceptSocket]
    split
    · rfl
    split
    · rfl
    split
    · rfl
    split <;> rfl
  | tcpClose g =>
    show (CatOs.Net.tcpCloseSocket env g n).udpHandles i = _
    rw [closes]
  | close s =>
    simp only [CatOs.Net.sockStep, CatOs.Net.netSocketClose]
    split
    · rename_i j
      split
      · refine update_of_ne ?_ _ _
        rintro rfl
        exact other rfl
      split <;> rfl
    · split
      · rfl
      · rw [closes]
      · rw [frees]
      · split
        · rw [frees]
        · rw [frees]
      · rfl
  | abort g =>
    simp only [CatOs.Net.sockStep, CatOs.Net.tcpAbortSocket]
    split <;> rfl
  | send g data | recv g maxLen =>
    simp only [CatOs.Net.sockStep, CatOs.Net.onConn]
    split <;> rfl
  | segment seg srcIp => rfl
  | tick => rfl

end Unchanged

structure NetSocks.Fresh (n : NetSocks) : Prop where
  tcp : ∀ h : Fin tcpMaxConns, (n.tcpHandles h).type = .closed
  udp : ∀ i, (n.udpHandles i).type ≠ .closed →
    (n.udpHandles i).slot = i ∧ (n.udpSocks i).used = true

theorem NetSocks.Fresh.handlesOk {n : NetSocks} (fresh : n.Fresh) : HandlesOk n := by
  have nothing : ∀ (h : Fin tcpMaxConns) i, n.target h ≠ some i := by
    intro h i points
    exact open_of_target points (fresh.tcp h)
  exact { distinct := fun g h i points => (nothing g i points).elim
          held := fun h i points => (nothing h i points).elim
          same := fun h i _ points => (nothing h i points).elim
          udp := fresh.udp }

def emptySocks : NetSocks :=
  { table := { conns := fun _ => zeroConn, seqGen := 0 }
    tcpHandles := fun _ => { type := .closed, conn := none }
    udpSocks := fun _ => zeroUdpSock
    udpHandles := fun i => { type := .closed, lport := 0, slot := i, owned := false }
    acceptedFor := fun _ => connId zeroConn }

theorem fresh_emptySocks : emptySocks.Fresh :=
  { tcp := fun _ => rfl, udp := fun _ opened => (opened rfl).elim }

def headerBytes (sport dport : Half) (seq ack : Word) (flags : Flags) : List UInt8 :=
  be16Bytes sport ++ be16Bytes dport ++ be32Bytes seq ++ be32Bytes ack ++
    [0x50, ⟨flags⟩, 1, 0, 0, 0, 0, 0]

def firstHandle : Fin tcpMaxConns := ⟨0, Nat.zero_lt_succ 63⟩

def acceptPeer (ip isn : Word) : List (TcpEnv × SockOp) :=
  let env : TcpEnv := { ticks := 5, outcome := fun _ => .sent }
  [(env, .segment (headerBytes 4000 80 100 0 tcpFlagSyn) ip),
    (env, .segment (headerBytes 4000 80 101 (isn + 1) tcpFlagAck) ip), (env, .accept firstHandle)]

def onePeer : List (TcpEnv × SockOp) :=
  let env : TcpEnv := { ticks := 5, outcome := fun _ => .sent }
  [(env, .openSocket 1), (env, .bind (.tcp firstHandle) 80)] ++ acceptPeer 1 0

end CatOs.Net
