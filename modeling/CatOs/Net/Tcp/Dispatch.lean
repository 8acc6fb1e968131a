import CatOs.Net.Tcp.Table

/-! Which connections an incoming segment can change. -/

namespace CatOs.Tcp

def Addressed (s : TcpIn) (srcIp : Word) (c : TcpConn) : Prop :=
  c.peerIp = srcIp ∧ c.peerPort = s.srcPort ∧ c.lport = s.dstPort ∧ c.state ≠ .listen ∧
    c.state ≠ .closed

section Find

variable {w : TcpTable}

theorem TcpTable.findConn_some {test : TcpConn → Bool} {i : Nat}
    (found : w.findConn test = some i) : i < tcpMaxConns ∧ test (w.conns i) = true := by
  simp only [TcpTable.findConn] at found
  have passes := List.find?_some found
  exact ⟨List.mem_range.mp (List.mem_of_find?_eq_some found), passes⟩

theorem tcpConnFindPeer_some {ip : Word} {sport : Half} {i : Nat}
    (found : tcpConnFindPeer w ip sport = some i) :
    i < tcpMaxConns ∧ (w.conns i).used = true ∧ (w.conns i).peerIp = ip ∧
      (w.conns i).peerPort = sport := by
  obtain ⟨within, test⟩ := TcpTable.findConn_some found
  simp only [Bool.and_eq_true, beq_iff_eq] at test
  exact ⟨within, test.1.1, test.1.2, test.2⟩

@[simp] theorem TcpTable.setConn_self (i : Nat) (c : TcpConn) : (w.setConn i c).conns i = c :=
  Function.update_self ..

theorem TcpTable.setConn_of_ne {i j : Nat} (other : j ≠ i) (c : TcpConn) :
    (w.setConn i c).conns j = w.conns j :=
  Function.update_of_ne other _ _

theorem TcpTable.forall_setConn {P : Nat → TcpConn → Prop} {i : Nat} {c : TcpConn} (here : P i c)
    (there : ∀ j ≠ i, P j (w.conns j)) (j : Nat) : P j ((w.setConn i c).conns j) := by
  by_cases same : j = i
  · rw [same, TcpTable.setConn_self]
    exact here
  · rw [TcpTable.setConn_of_ne same]
    exact there j same

theorem tcpHandleListen_frame (env : TcpEnv) (s : TcpIn) (srcIp : Word) {i : Nat}
    (used : (w.conns i).used = true) :
    (tcpHandleListen env w s srcIp).1.conns i = w.conns i := by
  simp only [tcpHandleListen]
  split
  · rfl
  split
  · rfl
  split
  · rfl
  split
  · rfl
  · -- The new connection goes into a slot that was free.
    rename_i free
    have unused := (TcpTable.findConn_some free).2
    refine TcpTable.setConn_of_ne ?_ _
    rintro rfl
    simp [used] at unused

theorem tcpHandle_frame (env : TcpEnv) (seg : List UInt8) (srcIp : Word) {s : TcpIn}
    (parsed : tcpParseSegment seg = some s) {i : Nat} (used : (w.conns i).used = true)
    (other : tcpConnFindPeer w srcIp s.srcPort ≠ some i) :
    (tcpHandle env w seg srcIp).1.conns i = w.conns i := by
  simp only [tcpHandle, parsed]
  split
  · exact tcpHandleListen_frame env s srcIp used
  · rename_i j found
    have apart : i ≠ j := by
      rintro rfl
      exact other found
    split
    · have kept := TcpTable.setConn_of_ne (w := w) apart (releaseConn (w.conns j))
      rw [tcpHandleListen_frame env s srcIp (by rw [kept, used]), kept]
    · exact TcpTable.setConn_of_ne apart _

end Find

def rstBytes (sport dport : Half) (seq : Word) : List UInt8 :=
  be16Bytes sport ++ (be16Bytes dport ++ (be32Bytes seq ++
    [0, 0, 0, 0, 0x50, 4, 0, 0, 0, 0, 0, 0]))

theorem tcpParseSegment_rstBytes (sport dport : Half) (seq : Word) :
    tcpParseSegment (rstBytes sport dport seq) = some
      { srcPort := sport, dstPort := dport, seq := seq, ack := 0, flags := tcpFlagRst
        window := 0, opts := [], data := [] } := by
  have source : be16 (rstBytes sport dport seq) = sport := be16_be16Bytes sport _
  have destination : be16 ((rstBytes sport dport seq).drop 2) = dport := be16_be16Bytes dport _
  have number : be32 ((rstBytes sport dport seq).drop 4) = seq := be32_be32Bytes seq _
  have length : (rstBytes sport dport seq).length = 20 := rfl
  have offset : (rstBytes sport dport seq).getD 12 0 = 0x50 := rfl
  have flags : (rstBytes sport dport seq).getD 13 0 = 4 := rfl
  have rest : (rstBytes sport dport seq).drop 8 = [0, 0, 0, 0, 0x50, 4, 0, 0, 0, 0, 0, 0] := rfl
  have tail : (rstBytes sport dport seq).drop 14 = [0, 0, 0, 0, 0, 0] := rfl
  have body : (rstBytes sport dport seq).drop 20 = [] := rfl
  simp only [tcpParseSegment, source, destination, number, length, offset, flags, rest, tail]
  simp [body, be32, be16, tcpFlagRst]

theorem tcpHandle_rst {w : TcpTable} {srcIp : Word} {sport : Half} {i : Nat}
    (found : tcpConnFindPeer w srcIp sport = some i) (env : TcpEnv) (dport : Half) :
    ((tcpHandle env w (rstBytes sport dport (w.conns i).rcvNxt) srcIp).1.conns i).used = false := by
  simp only [tcpHandle, tcpParseSegment_rstBytes, found, isStale, TcpIn.has]
  have reset : Flags.has tcpFlagRst tcpFlagSyn = false ∧ Flags.has tcpFlagRst tcpFlagRst = true := by
    decide
  simp [reset, tcpHandleConn, TcpIn.has, tcpHandleRst, TcpTable.setConn, startIo, TcpIo.modify,
    releaseConn]

/--
A segment changes only connections that it is addressed to exactly when the search for its peer
finds no other kind of slot.

The search compares the peer alone, so it also finds a connection of another local port, a
listener, or a slot that was never bound.
-/
theorem dispatch_respects_identity (w : TcpTable) (srcIp : Word) (sport dport : Half) :
    (∀ env seg s, tcpParseSegment seg = some s → s.srcPort = sport → s.dstPort = dport →
      ∀ i < tcpMaxConns, (w.conns i).used = true →
        (tcpHandle env w seg srcIp).1.conns i ≠ w.conns i → Addressed s srcIp (w.conns i)) ↔
    ∀ i, tcpConnFindPeer w srcIp sport = some i →
      (w.conns i).lport = dport ∧ (w.conns i).state ≠ .listen ∧ (w.conns i).state ≠ .closed := by
  constructor
  · -- A reset shows whatever the search finds.
    intro respects i found
    obtain ⟨within, used, -, -⟩ := tcpConnFindPeer_some found
    have released := tcpHandle_rst found { ticks := 0, outcome := fun _ => .noFrame } dport
    have addressed := respects _ _ _ (tcpParseSegment_rstBytes sport dport (w.conns i).rcvNxt)
      rfl rfl i within used (fun same => by rw [same, used] at released; cases released)
    exact addressed.2.2
  · rintro finds env seg s parsed rfl rfl i within used changed
    have found : tcpConnFindPeer w srcIp s.srcPort = some i := by
      by_contra other
      exact changed (tcpHandle_frame env seg srcIp parsed used other)
    obtain ⟨-, -, ip, port⟩ := tcpConnFindPeer_some found
    exact ⟨ip, port, finds i found⟩

/--
A segment for another local port resets a connection, and so does one from a zero address reset
a listener.
-/
theorem dispatch_crosses_identity :
    let conn : TcpConn := { zeroConn with
      used := true, state := .established, lport := 80, peerIp := 1, peerPort := 4000, rcvNxt := 9 }
    let listener : TcpConn := { zeroConn with used := true, state := .listen, lport := 80 }
    let table (c : TcpConn) : TcpTable :=
      { conns := fun i => if i = 0 then c else zeroConn, seqGen := 0 }
    let env : TcpEnv := { ticks := 0, outcome := fun _ => .sent }
    ((tcpHandle env (table conn) (rstBytes 4000 81 9) 1).1.conns 0).used = false ∧
      ((tcpHandle env (table listener) (rstBytes 0 80 0) 0).1.conns 0).used = false := by
  decide

end CatOs.Tcp
