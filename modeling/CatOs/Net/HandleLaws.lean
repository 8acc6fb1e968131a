import CatOs.Net.Handles
import CatOs.Net.Tcp.Dispatch
import CatOs.Net.Tcp.ScoreboardRun
import CatOs.Net.Tcp.Stable

/-! What it means that every handle has a connection of its own, and which changes keep it. -/

namespace CatOs.Net

open CatOs.Tcp
open Function

def NetSocks.target (n : NetSocks) (h : Nat) : Option Nat :=
  if (n.tcpHandles h).type = .closed then none else (n.tcpHandles h).conn

def NetSocks.Refers (n : NetSocks) (i : Nat) : Prop := ∃ h : Fin tcpMaxConns, n.target h = some i

instance (n : NetSocks) (i : Nat) : Decidable (n.Refers i) :=
  inferInstanceAs (Decidable (∃ _ : Fin tcpMaxConns, _))

structure Held (c : TcpConn) : Prop where
  used : c.used = true
  settled : c.accepted = true ∨ c.state.isOpen = false

structure HandlesOk (n : NetSocks) : Prop where
  distinct : ∀ (g h : Fin tcpMaxConns) i, n.target g = some i → n.target h = some i → g = h
  held : ∀ (h : Fin tcpMaxConns) i, n.target h = some i → Held (n.table.conns i)
  same : ∀ (h : Fin tcpMaxConns) i, (n.tcpHandles h).type = .tcpEstab →
    n.target h = some i → connId (n.table.conns i) = n.acceptedFor h
  udp : ∀ i, (n.udpHandles i).type ≠ .closed →
    (n.udpHandles i).slot = i ∧ (n.udpSocks i).used = true

section Targets

variable {n : NetSocks}

theorem target_of_closed {h : Nat} (closed : (n.tcpHandles h).type = .closed) :
    n.target h = none := by
  rw [NetSocks.target, if_pos closed]

theorem target_of_open {h : Nat} (opened : (n.tcpHandles h).type ≠ .closed) :
    n.target h = (n.tcpHandles h).conn := by
  rw [NetSocks.target, if_neg opened]

theorem open_of_target {h i : Nat} (points : n.target h = some i) :
    (n.tcpHandles h).type ≠ .closed := by
  intro closed
  rw [target_of_closed closed] at points
  cases points

@[simp] theorem tcpHandles_setTcp_self (h : Nat) (handle : TcpHandle) :
    (n.setTcp h handle).tcpHandles h = handle :=
  update_self ..

theorem tcpHandles_setTcp_of_ne {g h : Nat} (other : g ≠ h) (handle : TcpHandle) :
    (n.setTcp h handle).tcpHandles g = n.tcpHandles g :=
  update_of_ne other _ _

theorem tcpHandles_closeTcp_of_ne {g h : Nat} (other : g ≠ h) :
    (n.closeTcp h).tcpHandles g = n.tcpHandles g :=
  tcpHandles_setTcp_of_ne other _

theorem target_setTcp_of_ne {g h : Nat} (other : g ≠ h) (handle : TcpHandle) :
    (n.setTcp h handle).target g = n.target g := by
  simp only [NetSocks.target, tcpHandles_setTcp_of_ne other]

theorem target_setTcp_self (h : Nat) (handle : TcpHandle) :
    (n.setTcp h handle).target h = if handle.type = .closed then none else handle.conn := by
  simp only [NetSocks.target, tcpHandles_setTcp_self]

end Targets

section Updates

variable {n : NetSocks}

theorem HandlesOk.setTable (ok : HandlesOk n) {table : TcpTable}
    (keeps : ∀ i, n.Refers i → Held (table.conns i) ∧
      connId (table.conns i) = connId (n.table.conns i)) :
    HandlesOk { n with table := table } := by
  refine { distinct := ok.distinct, held := fun h i points => ?_,
           same := fun h i established points => ?_, udp := ok.udp }
  · exact (keeps i ⟨h, points⟩).1
  · exact (keeps i ⟨h, points⟩).2.trans (ok.same h i established points)

theorem HandlesOk.setConn (ok : HandlesOk n) {i : Nat} (free : ¬n.Refers i) (c : TcpConn) :
    HandlesOk (n.setConn i c) := by
  apply ok.setTable
  intro j refers
  have other : j ≠ i := by
    rintro rfl
    exact free refers
  rw [TcpTable.setConn_of_ne other]
  obtain ⟨h, points⟩ := refers
  exact ⟨ok.held h j points, rfl⟩

theorem target_closeTcp {g h : Nat} {i : Nat} (points : (n.closeTcp h).target g = some i) :
    g ≠ h ∧ n.target g = some i := by
  have other : g ≠ h := by
    rintro rfl
    rw [NetSocks.closeTcp, target_setTcp_self, if_pos rfl] at points
    cases points
  exact ⟨other, (target_setTcp_of_ne other _).symm.trans points⟩

theorem HandlesOk.closeTcp (ok : HandlesOk n) (h : Nat) : HandlesOk (n.closeTcp h) := by
  refine { distinct := fun g g' i first second => ?_, held := fun g i points => ?_,
           same := fun g i established points => ?_, udp := ok.udp }
  · exact ok.distinct g g' i (target_closeTcp first).2 (target_closeTcp second).2
  · exact ok.held g i (target_closeTcp points).2
  · obtain ⟨other, before⟩ := target_closeTcp points
    refine ok.same g i ?_ before
    rw [← established, tcpHandles_closeTcp_of_ne other]

theorem HandlesOk.unreferred (ok : HandlesOk n) {h : Fin tcpMaxConns} {i : Nat}
    (points : n.target h = some i) : ¬(n.closeTcp h).Refers i := by
  rintro ⟨g, still⟩
  obtain ⟨other, before⟩ := target_closeTcp still
  exact other (congrArg Fin.val (ok.distinct g h i before points))

theorem HandlesOk.setTcp (ok : HandlesOk n) {h i : Nat} (free : ¬n.Refers i)
    (held : Held (n.table.conns i)) {type : SockType}
    (same : type = .tcpEstab → connId (n.table.conns i) = n.acceptedFor h) :
    HandlesOk (n.setTcp h { type := type, conn := some i }) := by
  -- Every handle points where it did, except the new one.
  have cases : ∀ (g : Fin tcpMaxConns) j,
      (n.setTcp h { type := type, conn := some i }).target g = some j →
      (g.val = h ∧ j = i) ∨ (g.val ≠ h ∧ n.target g = some j ∧ j ≠ i) := by
    intro g j points
    by_cases here : g.val = h
    · rw [here, target_setTcp_self] at points
      split at points
      · cases points
      · exact .inl ⟨here, (Option.some.inj points).symm⟩
    · rw [target_setTcp_of_ne here] at points
      refine .inr ⟨here, points, ?_⟩
      rintro rfl
      exact free ⟨g, points⟩
  refine { distinct := fun g g' j first second => ?_, held := fun g j points => ?_,
           same := fun g j established points => ?_, udp := ok.udp }
  · rcases cases g j first with ⟨here, at_⟩ | ⟨-, before, other⟩ <;>
      rcases cases g' j second with ⟨here', at'⟩ | ⟨-, before', other'⟩
    · exact Fin.ext (here.trans here'.symm)
    · exact (other' at_).elim
    · exact (other at').elim
    · exact ok.distinct g g' j before before'
  · rcases cases g j points with ⟨-, rfl⟩ | ⟨-, before, -⟩
    · exact held
    · exact ok.held g j before
  · rcases cases g j points with ⟨here, rfl⟩ | ⟨there, before, -⟩
    · rw [here]
      apply same
      rw [← established, here, tcpHandles_setTcp_self]
    · refine ok.same g j ?_ before
      rw [← established, tcpHandles_setTcp_of_ne there]

theorem HandlesOk.setAcceptedFor (ok : HandlesOk n) {h : Nat}
    (closed : (n.tcpHandles h).type = .closed) (id : ConnId) :
    HandlesOk { n with acceptedFor := update n.acceptedFor h id } := by
  refine { distinct := ok.distinct, held := ok.held, same := fun g i established points => ?_,
           udp := ok.udp }
  have other : g.val ≠ h := by
    intro here
    have established : (n.tcpHandles g).type = .tcpEstab := established
    rw [here, closed] at established
    cases established
  exact (ok.same g i established points).trans (update_of_ne other _ _).symm

end Updates

theorem connId_of_stable {c d : TcpConn} (same : c.stable = d.stable) : connId c = connId d := by
  have lasts : ∀ e : TcpConn, connId e = connId e.stable := fun _ => rfl
  rw [lasts c, lasts d, same]

theorem accepted_of_stable {c d : TcpConn} (same : c.stable = d.stable) :
    c.accepted = d.accepted := by
  have lasts : ∀ e : TcpConn, e.accepted = e.stable.accepted := fun _ => rfl
  rw [lasts c, lasts d, same]

theorem Held.of_stable {c d : TcpConn} (held : Held c) (same : d.stable = c.stable)
    (used : d.used = true) (opened : c.state.isOpen = false → d.state.isOpen = false) : Held d := by
  refine { used := used, settled := ?_ }
  rcases held.settled with taken | notOpen
  · exact .inl ((accepted_of_stable same).trans taken)
  · exact .inr (opened notOpen)

section Use

variable (env : TcpEnv) (io : TcpIo)

theorem used_of_eraseSender {c d : TcpConn} (same : c.eraseSender = d.eraseSender) :
    c.used = d.used :=
  eq_of_erased same TcpConn.used fun _ => rfl

theorem used_tcpSend (data : List UInt8) : (tcpSend env io data).1.conn.used = io.conn.used :=
  used_of_eraseSender (eraseSender_tcpSend env io data)

theorem used_tcpRecv (maxLen : Nat) : (tcpRecv env io maxLen).1.conn.used = io.conn.used := by
  rcases tcpRecv_conn env io maxLen with same | ⟨n, window, read⟩
  · rw [same]
  · rw [read]
    rfl

end Use

section Tick

variable (env : TcpEnv)

theorem stable_tcpTestSend (io : TcpIo) : (tcpTestSend env io).conn.stable = io.conn.stable := by
  have marked : ∀ c : TcpConn, TcpConn.stable { c with testSent := true } = c.stable :=
    fun _ => rfl
  simp only [tcpTestSend, TcpIo.modify_conn, marked]
  refine forRange_frame (fun state : TcpIo × Bool => state.1.conn.stable)
    (fun k state _ => ?_) (io, true)
  split
  · exact stable_tcpSend env state.1 (testBlock k)
  · rfl

theorem isOpen_tcpClose_established {io : TcpIo} (established : io.conn.state = .established) :
    (tcpClose env io).conn.state.isOpen = false := by
  have finished : (tcpSendFin env .finWait1 io).conn.state = .finWait1 :=
    congrArg SendView.state (tcpSendFin_conn env .finWait1 io)
  simp only [tcpClose]
  rw [if_pos established, TcpIo.modify_conn]
  show (tcpSendFin env .finWait1 io).conn.state.isOpen = false
  rw [finished]
  rfl

theorem settled_tcpTestTick {io : TcpIo}
    (settled : io.conn.accepted = true ∨ io.conn.state.isOpen = false) :
    connId (tcpTestTick env io).conn = connId io.conn ∧
      ((tcpTestTick env io).conn.accepted = true ∨
        (tcpTestTick env io).conn.state.isOpen = false) := by
  simp only [tcpTestTick]
  split
  · rename_i testing
    have accepted : io.conn.accepted = true := by
      rcases settled with taken | notOpen
      · exact taken
      · rw [testing.1] at notOpen
        cases notOpen
    split
    · have same := stable_tcpTestSend env io
      refine ⟨connId_of_stable same, .inl ?_⟩
      exact (accepted_of_stable same).trans accepted
    split
    · have closed : ∀ c : TcpConn, connId { c with testClosed := true } = connId c := fun _ => rfl
      have lasts : ∀ c : TcpConn, connId c = connId { c.stable with accepted := false } :=
        fun _ => rfl
      refine ⟨?_, .inr (isOpen_tcpClose_established env testing.1)⟩
      rw [TcpIo.modify_conn, closed, lasts, stable_tcpClose, ← lasts]
    · exact ⟨rfl, settled⟩
  · exact ⟨rfl, settled⟩

theorem settled_tcpTickConn (io : TcpIo)
    (settled : io.conn.accepted = true ∨ io.conn.state.isOpen = false) :
    connId (tcpTickConn env io).conn = connId io.conn ∧
      ((tcpTickConn env io).conn.accepted = true ∨
        (tcpTickConn env io).conn.state.isOpen = false) := by
  simp only [tcpTickConn]
  split
  · exact ⟨rfl, settled⟩
  split
  · split
    · exact ⟨rfl, .inr rfl⟩
    · exact ⟨rfl, settled⟩
  · obtain ⟨same, kept⟩ := settled_tcpTestTick env settled
    generalize tcpTestTick env io = tested at same kept
    -- Neither timer touches what lasts, and neither opens a connection again.
    have stable := (stable_tcpRtoTick env (tcpPersistTick env tested)).trans
      (stable_tcpPersistTick env tested)
    refine ⟨(connId_of_stable stable).trans same, ?_⟩
    rcases kept with taken | notOpen
    · exact .inl ((accepted_of_stable stable).trans taken)
    · right
      rcases state_tcpRtoTick env (tcpPersistTick env tested) with unmoved | released
      · rw [unmoved, state_tcpPersistTick]
        exact notOpen
      · rw [released]
        rfl

theorem tcpTick_conns (w : TcpTable) (i : Nat) :
    (tcpTick env w).1.conns i = w.conns i ∨ ∃ calls, (tcpTick env w).1.conns i =
      (tcpTickConn env { startIo (w.conns i) with calls := calls }).conn := by
  unfold tcpTick
  generalize tcpMaxConns = count
  -- The loop has ticked the connections below its index and not yet touched the others.
  have loop := @forRange_invariant (TcpTable × Nat × List TcpOut) count
    (fun i state =>
      let io := tcpTickConn env { startIo (state.1.conns i) with calls := state.2.1 }
      (state.1.setConn i io.conn, io.calls, state.2.2 ++ io.wire)) (w, 0, [])
    (fun k state => (k ≤ i ∧ state.1.conns i = w.conns i) ∨ (i < k ∧ ∃ calls, state.1.conns i =
      (tcpTickConn env { startIo (w.conns i) with calls := calls }).conn))
    (.inl ⟨Nat.zero_le _, rfl⟩) ?_
  · rcases loop with ⟨-, same⟩ | ⟨-, ticked⟩
    · exact .inl same
    · exact .inr ticked
  · rintro k ⟨table, calls, wire⟩ _ before
    by_cases here : k = i
    · subst here
      rcases before with ⟨-, same⟩ | ⟨later, -⟩
      · refine .inr ⟨Nat.lt_succ_self k, calls, ?_⟩
        rw [← same]
        exact update_self ..
      · exact (Nat.lt_irrefl k later).elim
    · have kept : ∀ c, (table.setConn k c).conns i = table.conns i := fun c =>
        TcpTable.setConn_of_ne (Ne.symm here) c
      rcases before with ⟨below, same⟩ | ⟨later, calls, ticked⟩
      · exact .inl ⟨by omega, (kept _).trans same⟩
      · exact .inr ⟨Nat.lt_succ_of_lt later, calls, (kept _).trans ticked⟩

end Tick

end CatOs.Net
