import CatOs.Net.Tcp.OooStore
import CatOs.Net.Tcp.SenderFrame

/-! The window a connection has announced, and the room it keeps for it. -/

namespace CatOs.Tcp

structure Offers (c : TcpConn) (moved : Nat) (later : TcpConn) (p : TcpOut) : Prop where
  /-- Its right edge is still within the room that is left. -/
  edge : ∃ j ≤ moved, p.ack = c.rcvNxt + lenWord j ∧
    j + p.window.toNat + later.rx.rxn ≤ moved + tcpBufSize
  /-- Its window is closed or takes a full segment. -/
  whole : p.window = 0 ∨ tcpMss ≤ p.window.toNat
  /-- Its window is closed only if there is no room for a full segment. -/
  shut : p.window = 0 → tcpBufSize < later.rx.rxn + tcpMss
  /-- It does not reset the peer. -/
  plain : p.flags.has tcpFlagRst = false

/--
One exchange comes from another while the next expected byte moves on by some bytes.

Nothing is read in the meantime, and no more is received than the byte moves.
-/
structure Advances (env : TcpEnv) (io next : TcpIo) (moved : Nat) : Prop where
  number : next.conn.rcvNxt = io.conn.rcvNxt + lenWord moved
  least : io.conn.rx.rxn ≤ next.conn.rx.rxn
  most : next.conn.rx.rxn ≤ io.conn.rx.rxn + moved
  wire : ∃ sent, next.wire = io.wire ++ sent ∧ (∀ p ∈ sent, Offers io.conn moved next.conn p) ∧
    ((∀ k, env.outcome k = .sent) → next.conn.advWin = lastWindow sent io.conn.advWin)

section Windows

variable {c d : TcpConn}

theorem toNat_advertised (c : TcpConn) :
    (BitVec.ofNat 16 (tcpAdvertiseWindow c)).toNat = tcpAdvertiseWindow c := by
  have small : tcpAdvertiseWindow c ≤ tcpBufSize := by
    simp only [tcpAdvertiseWindow]
    split <;> omega
  simp only [tcpBufSize] at small
  rw [BitVec.toNat_ofNat]
  exact Nat.mod_eq_of_lt (by omega)

theorem tcpAdvertiseWindow_cases (c : TcpConn) :
    (tcpAdvertiseWindow c = 0 ∧ tcpBufSize < c.rx.rxn + tcpMss) ∨
      (tcpAdvertiseWindow c + c.rx.rxn = tcpBufSize ∧ tcpMss ≤ tcpAdvertiseWindow c) := by
  have bounded := c.rx.rxn_le
  unfold tcpAdvertiseWindow
  by_cases small : tcpBufSize - c.rx.rxn ≠ 0 ∧ tcpBufSize - c.rx.rxn < tcpMss
  · rw [if_pos small]
    omega
  · rw [if_neg small]
    simp only [tcpBufSize, tcpMss] at bounded small ⊢
    omega

theorem receive_of_eraseSender (same : c.eraseSender = d.eraseSender) :
    c.rcvNxt = d.rcvNxt ∧ c.rx = d.rx := by
  exact ⟨eq_of_erased same TcpConn.rcvNxt fun _ => rfl, eq_of_erased same TcpConn.rx fun _ => rfl⟩

theorem SentBy.offers {p : TcpOut} (sent : SentBy c p) : Offers c 0 c p := by
  obtain ⟨d, flags, seq, data, same, rfl, plain, -⟩ := sent
  obtain ⟨next, rx⟩ := receive_of_eraseSender same
  have window : (buildSegment d flags seq d.rcvNxt data).window.toNat = tcpAdvertiseWindow d :=
    toNat_advertised d
  have closed : (buildSegment d flags seq d.rcvNxt data).window = 0 ↔ tcpAdvertiseWindow d = 0 := by
    rw [← window]
    exact (BitVec.toNat_eq (y := 0)).trans Iff.rfl
  have room := tcpAdvertiseWindow_cases d
  rw [rx] at room
  refine { edge := ⟨0, Nat.le_refl 0, ?_, ?_⟩, whole := ?_, shut := ?_, plain := plain }
  · show d.rcvNxt = c.rcvNxt + 0
    rw [next, add_zero]
  · rw [window]
    have bounded := c.rx.rxn_le
    omega
  · rw [closed, window]
    omega
  · rw [closed]
    simp only [tcpMss] at room ⊢
    omega

end Windows

section Steps

variable {env : TcpEnv} {io next later : TcpIo} {moved more : Nat}

theorem Offers.moveOn {c mid last : TcpConn} {p : TcpOut} (offers : Offers c moved mid p)
    (least : mid.rx.rxn ≤ last.rx.rxn) (most : last.rx.rxn ≤ mid.rx.rxn + more) :
    Offers c (moved + more) last p := by
  obtain ⟨j, small, ack, edge⟩ := offers.edge
  refine { edge := ⟨j, by omega, ack, by omega⟩, whole := offers.whole, shut := ?_,
           plain := offers.plain }
  intro closed
  have full := offers.shut closed
  omega

theorem Offers.earlier {first c last : TcpConn} {p : TcpOut} (offers : Offers c more last p)
    (number : c.rcvNxt = first.rcvNxt + lenWord moved) : Offers first (moved + more) last p := by
  obtain ⟨j, small, ack, edge⟩ := offers.edge
  refine { edge := ⟨moved + j, by omega, ?_, by omega⟩, whole := offers.whole,
           shut := offers.shut, plain := offers.plain }
  rw [ack, number, add_assoc, lenWord, lenWord, lenWord, ← BitVec.ofNat_add]

theorem Advances.trans (first : Advances env io next moved) (second : Advances env next later more) :
    Advances env io later (moved + more) := by
  obtain ⟨sent, wire, built, announced⟩ := first.wire
  obtain ⟨rest, wire', built', announced'⟩ := second.wire
  have least := first.least
  have most := first.most
  have least' := second.least
  have most' := second.most
  refine { number := ?_, least := by omega, most := by omega, wire := ⟨sent ++ rest, ?_, ?_, ?_⟩ }
  · rw [second.number, first.number, add_assoc, lenWord, lenWord, lenWord, ← BitVec.ofNat_add]
  · rw [wire', wire, List.append_assoc]
  · intro p member
    rcases List.mem_append.mp member with early | late
    · exact (built p early).moveOn least' most'
    · exact (built' p late).earlier first.number
  · intro success
    rw [announced' success, announced success, lastWindow_append]

theorem Advances.modify (f : TcpConn → TcpConn) (next : (f io.conn).rcvNxt = io.conn.rcvNxt)
    (rx : (f io.conn).rx = io.conn.rx) (advWin : (f io.conn).advWin = io.conn.advWin) :
    Advances env io (io.modify f) 0 where
  number := by rw [TcpIo.modify_conn, next]; exact (add_zero _).symm
  least := by rw [TcpIo.modify_conn, rx]
  most := by rw [TcpIo.modify_conn, rx]; exact Nat.le_refl _
  wire := ⟨[], (List.append_nil _).symm, fun _ none => absurd none List.not_mem_nil, fun _ => advWin⟩

theorem Emits.advances (emits : Emits env io next) : Advances env io next 0 := by
  obtain ⟨number, rx⟩ := receive_of_eraseSender emits.side
  obtain ⟨sent, wire, built, announced⟩ := emits.wire
  refine { number := ?_, least := by rw [rx], most := by rw [rx]; exact Nat.le_refl _,
           wire := ⟨sent, wire, ?_, announced⟩ }
  · rw [number]
    exact (add_zero _).symm
  · intro p member
    have offers := (built p member).offers
    have kept : next.conn.rx.rxn ≤ io.conn.rx.rxn + 0 := by rw [rx]; exact Nat.le_refl _
    exact offers.moveOn (by rw [rx]) kept

end Steps

def Grown (c : TcpConn) (moved : Nat) (d : TcpConn) : Prop :=
  d.rcvNxt = c.rcvNxt + lenWord moved ∧ d.rx.rxn = c.rx.rxn + moved

structure Takes (c : TcpConn) (data : List UInt8) (moved : Nat) (rx : TcpRx) : Prop where
  far : data.length ≤ moved
  bytes : rx.rxb.read c.rx.rxn data.length = data

section Receive

variable {c d : TcpConn} {moved : Nat}

theorem Grown.append (grown : Grown c moved d) {data : List UInt8}
    (fits : d.rx.rxn + data.length ≤ tcpBufSize) :
    (tcpRxAppend d data).rx.rxn = c.rx.rxn + (moved + data.length) ∧
      (tcpRxAppend d data).rcvNxt + lenWord data.length =
        c.rcvNxt + lenWord (moved + data.length) := by
  simp only [tcpRxAppend, dif_pos fits]
  constructor
  · rw [grown.2, Nat.add_assoc]
  · rw [grown.1, add_assoc, lenWord, lenWord, lenWord, ← BitVec.ofNat_add]

theorem Grown.tcpMergeOoo (grown : Grown c moved d) :
    ∃ total, moved ≤ total ∧ Grown c total (tcpMergeOoo d) ∧
      ∀ from_ count, from_ + count ≤ d.rx.rxn →
        (tcpMergeOoo d).rx.rxb.read from_ count = d.rx.rxb.read from_ count := by
  have merge := tcpMergeOoo_keeps (fun e => d.rx.rxn ≤ e.rx.rxn ∧
    (∃ total, moved ≤ total ∧ Grown c total e) ∧ ∀ from_ count, from_ + count ≤ d.rx.rxn →
      e.rx.rxb.read from_ count = d.rx.rxb.read from_ count) ?_ ?_ ?_
    ⟨Nat.le_refl _, ⟨moved, Nat.le_refl moved, grown⟩, fun _ _ _ => rfl⟩
  · obtain ⟨⟨-, ⟨total, least, held⟩, kept⟩, -⟩ := merge
    exact ⟨total, least, held, kept⟩
  · intro e i _ _ held
    exact held
  · intro e i _ _ _ _ held
    exact held
  · intro e i _ _ _ fits held
    obtain ⟨longer, ⟨total, least, held⟩, kept⟩ := held
    have room : e.rx.rxn + ((e.ooo i).data.read 0 (e.ooo i).len).length ≤ tcpBufSize := by
      rw [Buffer.length_read]
      exact fits
    have appended := held.append room
    have buffer : (deliverOoo e i).rx.rxb =
        e.rx.rxb.write e.rx.rxn ((e.ooo i).data.read 0 (e.ooo i).len) := by
      simp only [deliverOoo, tcpRxAppend, dif_pos room]
      rfl
    rw [Buffer.length_read] at appended
    refine ⟨?_, ⟨total + (e.ooo i).len, by omega, appended.2, appended.1⟩, ?_⟩
    · show d.rx.rxn ≤ (tcpRxAppend e _).rx.rxn
      rw [appended.1]
      have counted := held.2
      omega
    · intro from_ count below
      rw [buffer, Buffer.read_write_before _ _ (by omega)]
      exact kept from_ count below

theorem grown_tcpAcceptData (c : TcpConn) (seq : Word) (data : List UInt8) :
    ∃ moved, Grown c moved (tcpAcceptData c seq data).1 ∧
      (InOrder c seq data → Takes c data moved (tcpAcceptData c seq data).1.rx) := by
  have still : Grown c 0 c := ⟨(add_zero _).symm, rfl⟩
  simp only [tcpAcceptData]
  split
  · rename_i elsewhere
    refine ⟨0, ?_, fun inOrder => absurd inOrder.1 elsewhere⟩
    rcases tcpQueueOoo_cases c seq data with same | ⟨i, trim, -, stored⟩
    · rw [same]
      exact still
    · rw [stored]
      exact still
  split
  · rename_i accepted
    have appended := still.append accepted.2
    rw [Nat.zero_add] at appended
    have start : Grown c data.length { tcpRxAppend c data with
        rcvNxt := (tcpRxAppend c data).rcvNxt + lenWord data.length } := ⟨appended.2, appended.1⟩
    obtain ⟨total, least, merged, kept⟩ := start.tcpMergeOoo
    refine ⟨total, merged, fun _ => ⟨least, ?_⟩⟩
    rw [kept _ _ (Nat.le_of_eq appended.1.symm)]
    simp only [tcpRxAppend, dif_pos accepted.2]
    exact Buffer.read_write_self _ _ _
  · rename_i refused
    exact ⟨0, still, fun inOrder => absurd inOrder.2 refused⟩

theorem advWin_tcpAcceptData (c : TcpConn) (seq : Word) (data : List UInt8) :
    (tcpAcceptData c seq data).1.advWin = c.advWin := by
  have kept : ∀ e : TcpConn, e.advWin = e.eraseReceive.advWin := fun _ => rfl
  rw [kept, eraseReceive_tcpAcceptData, ← kept]

end Receive

section Segment

variable {env : TcpEnv} (io : TcpIo)

theorem advances_tcpHandleData (s : TcpIn) :
    ∃ moved ≤ tcpBufSize, Advances env io (tcpHandleData env s io) moved ∧
      (InOrder io.conn s.seq s.data →
        Takes io.conn s.data moved (tcpHandleData env s io).conn.rx) := by
  simp only [tcpHandleData]
  split
  · rename_i nothing
    refine ⟨0, Nat.zero_le _, Emits.nothing.advances, fun _ => ⟨Nat.le_of_eq nothing, ?_⟩⟩
    rw [nothing]
    exact (List.length_eq_zero_iff.mp nothing).symm
  obtain ⟨moved, ⟨number, count⟩, takes⟩ := grown_tcpAcceptData io.conn s.seq s.data
  have bounded := (tcpAcceptData io.conn s.seq s.data).1.rx.rxn_le
  have taken : Advances env io (io.modify fun c => (tcpAcceptData c s.seq s.data).1) moved :=
    { number := number, least := by rw [TcpIo.modify_conn]; omega,
      most := by rw [TcpIo.modify_conn]; omega
      wire := ⟨[], (List.append_nil _).symm, fun _ none => absurd none List.not_mem_nil,
        fun _ => advWin_tcpAcceptData io.conn s.seq s.data⟩ }
  refine ⟨moved, by omega, ?_, fun inOrder => ?_⟩
  · exact taken.trans (Emits.tcpPutCtl tcpFlagAck _ (by decide) (by decide)).advances
  · rw [(receive_of_eraseSender (eraseSender_tcpPutCtl ..)).2]
    exact takes inOrder

theorem advances_tcpSendFin (state : TcpState) :
    Advances env io (tcpSendFin env state io) 0 := by
  have put : Advances env io (tcpPutCtl env io tcpFlagFinack io.conn.sndNxt) 0 :=
    (Emits.tcpPutCtl tcpFlagFinack _ (by decide) (by decide)).advances
  exact put.trans (.modify _ rfl rfl rfl)

theorem rx_tcpHandleFin : (tcpHandleFin env io).conn.rx = io.conn.rx := by
  have acked : (tcpAckFin env io).conn.rx = io.conn.rx :=
    tcpPutCtl_frame env _ TcpConn.rx (fun _ _ => rfl) _ _
  rw [← acked]
  unfold tcpHandleFin tcpFinState
  split
  · split <;> rfl
  · rfl
  · rfl
  · rfl
  · exact tcpSendFin_frame env _ TcpConn.rx (fun _ _ => rfl) (fun _ _ => rfl) _

theorem advances_tcpHandleFin : Advances env io (tcpHandleFin env io) 1 := by
  have counted : Advances env io (io.modify fun c => { c with rcvNxt := c.rcvNxt + 1 }) 1 :=
    { number := rfl, least := Nat.le_refl _, most := Nat.le_add_right _ _
      wire := ⟨[], (List.append_nil _).symm, fun _ none => absurd none List.not_mem_nil,
        fun _ => rfl⟩ }
  have acked : Advances env io (tcpAckFin env io) 1 :=
    counted.trans (Emits.tcpPutCtl tcpFlagAck _ (by decide) (by decide)).advances
  have moves : ∀ next : TcpIo, Advances env next (tcpFinState env next) 0 := by
    intro next
    unfold tcpFinState
    split
    · split <;> exact .modify _ rfl rfl rfl
    · exact .modify _ rfl rfl rfl
    · exact .modify _ rfl rfl rfl
    · exact Emits.nothing.advances
    · have entered : Advances env next (next.modify fun c => { c with state := .closeWait }) 0 :=
        .modify _ rfl rfl rfl
      exact entered.trans (advances_tcpSendFin _ _)
  exact acked.trans (moves _)

theorem tcpFinishClose_receive (ticks : Word) (s : TcpIn) (c : TcpConn) :
    (tcpFinishClose ticks s c).rcvNxt = c.rcvNxt ∧ (tcpFinishClose ticks s c).rx = c.rx ∧
      (tcpFinishClose ticks s c).advWin = c.advWin := by
  simp only [tcpFinishClose]
  repeat' split
  all_goals exact ⟨rfl, rfl, rfl⟩

theorem advances_tcpHandleOpen (s : TcpIn) :
    ∃ moved ≤ tcpBufSize + 1, Advances env io (tcpHandleOpen env s io) moved ∧
      (InOrder io.conn s.seq s.data →
        Takes io.conn s.data moved (tcpHandleOpen env s io).conn.rx) := by
  obtain ⟨moved, bound, taken, takes⟩ := @advances_tcpHandleData env io s
  have finish : ∀ next : TcpIo, Advances env next (next.modify (tcpFinishClose env.ticks s)) 0 ∧
      (next.modify (tcpFinishClose env.ticks s)).conn.rx = next.conn.rx := by
    intro next
    obtain ⟨number, rx, advWin⟩ := tcpFinishClose_receive env.ticks s next.conn
    exact ⟨.modify _ number rx advWin, rx⟩
  simp only [tcpHandleOpen]
  split
  · refine ⟨moved + 1, by omega, taken.trans (advances_tcpHandleFin _), fun inOrder => ?_⟩
    have whole := takes inOrder
    rw [rx_tcpHandleFin]
    exact ⟨Nat.le_succ_of_le whole.far, whole.bytes⟩
  · refine ⟨moved, by omega, ?_⟩
    split
    · have put := taken.trans (Emits.tcpPutCtl tcpFlagAck
        (tcpHandleData env s io).conn.sndNxt (by decide) (by decide)).advances
      refine ⟨put.trans (finish _).1, fun inOrder => ?_⟩
      rw [(finish _).2, (receive_of_eraseSender (eraseSender_tcpPutCtl ..)).2]
      exact takes inOrder
    · refine ⟨taken.trans (finish _).1, fun inOrder => ?_⟩
      rw [(finish _).2]
      exact takes inOrder

theorem advances_tcpHandleState (s : TcpIn) :
    ∃ moved ≤ tcpBufSize + 1, Advances env io (tcpHandleState env s io) moved := by
  have put : ∀ seq, Advances env io (tcpPutCtl env io tcpFlagAck seq) 0 := fun seq =>
    (Emits.tcpPutCtl tcpFlagAck seq (by decide) (by decide)).advances
  have opened : ∃ moved ≤ tcpBufSize + 1, Advances env io (tcpHandleOpen env s io) moved := by
    obtain ⟨moved, bound, taken, -⟩ := @advances_tcpHandleOpen env io s
    exact ⟨moved, bound, taken⟩
  unfold tcpHandleState
  split
  · -- The handshake may complete before the data is looked at.
    split
    · obtain ⟨moved, bound, taken, -⟩ := @advances_tcpHandleData env (io.modify fun c =>
        { c with state := .established, rtoDeadline := 0, rtoAttempts := 0,
                 rtoBackoff := noBackoff }) s
      have opened : Advances env io (io.modify fun c =>
        { c with state := .established, rtoDeadline := 0, rtoAttempts := 0,
                 rtoBackoff := noBackoff }) 0 := .modify _ rfl rfl rfl
      exact ⟨0 + moved, by omega, opened.trans taken⟩
    · obtain ⟨moved, bound, taken, -⟩ := @advances_tcpHandleData env io s
      exact ⟨moved, by omega, taken⟩
  · exact opened
  · exact opened
  · exact opened
  · exact opened
  · exact opened
  · split
    · exact ⟨0, Nat.zero_le _, put _⟩
    split
    · exact ⟨0, Nat.zero_le _, .modify _ rfl rfl rfl⟩
    · exact ⟨0, Nat.zero_le _, Emits.nothing.advances⟩
  · split
    · exact ⟨0, Nat.zero_le _, put _⟩
    · exact ⟨0, Nat.zero_le _, Emits.nothing.advances⟩
  · exact ⟨0, Nat.zero_le _, Emits.nothing.advances⟩

theorem advances_tcpHandleConn (s : TcpIn) :
    ∃ moved ≤ tcpBufSize + 1, Advances env io (tcpHandleConn env s io) moved := by
  simp only [tcpHandleConn]
  split
  · -- The reply to the connection request goes out once more.
    have put : Advances env io (tcpPutCtl env io tcpFlagSynack io.conn.sndIsn) 0 :=
      (Emits.tcpPutCtl tcpFlagSynack _ (by decide) (by decide)).advances
    exact ⟨0, Nat.zero_le _, put.trans (.modify _ rfl rfl rfl)⟩
  split
  · refine ⟨0, Nat.zero_le _, ?_⟩
    simp only [tcpHandleRst]
    split
    · exact (Emits.tcpPutCtl tcpFlagAck _ (by decide) (by decide)).advances
    split
    · exact .modify _ rfl rfl rfl
    · exact Emits.nothing.advances
  · have noted : Emits env io (io.modify (tcpHandleWindow env.ticks s)) :=
      .modify _ (eq_of_erased (eraseControl_tcpHandleWindow io.conn env.ticks s) TcpConn.eraseBooks
        fun _ => rfl)
    have answered := (noted.trans (emits_tcpHandleAck env _ s io.conn.peerWin)).advances
    obtain ⟨moved, bound, taken⟩ := @advances_tcpHandleState env
      (tcpHandleAck env s io.conn.peerWin (io.modify (tcpHandleWindow env.ticks s))) s
    exact ⟨0 + moved, by omega, answered.trans taken⟩

theorem advances_tcpClose : Advances env io (tcpClose env io) 0 := by
  have flagged : ∀ next : TcpIo,
      Advances env next (next.modify fun c => { c with accepted := false }) 0 :=
    fun _ => .modify _ rfl rfl rfl
  simp only [tcpClose]
  split
  · exact (advances_tcpSendFin io _).trans (flagged _)
  split
  · exact (advances_tcpSendFin io _).trans (flagged _)
  · exact flagged io

theorem advances_tcpTestTick : Advances env io (tcpTestTick env io) 0 := by
  simp only [tcpTestTick]
  split
  swap
  · exact Emits.nothing.advances
  split
  · -- Every block of the pattern is sent like any other data.
    obtain ⟨after, sent, same⟩ := tcpTestSend_keeps (fun next => Emits env io next)
      (fun next data earlier => earlier.trans (emits_tcpSend env next data)) .nothing
    rw [same]
    exact sent.advances.trans (.modify _ rfl rfl rfl)
  split
  · exact (advances_tcpClose io).trans (.modify _ rfl rfl rfl)
  · exact Emits.nothing.advances

theorem advances_tcpTickConn : Advances env io (tcpTickConn env io) 0 := by
  simp only [tcpTickConn]
  split
  · exact Emits.nothing.advances
  split
  · split
    · exact .modify _ rfl rfl rfl
    · exact Emits.nothing.advances
  · have tested := @advances_tcpTestTick env io
    have probed := tested.trans (emits_tcpPersistTick env (tcpTestTick env io)).advances
    rcases emits_tcpRtoTick env (tcpPersistTick env (tcpTestTick env io)) with sent | released
    · exact probed.trans sent.advances
    · rw [released]
      exact probed.trans (.modify _ rfl rfl rfl)

theorem advances_tcpStep (op : TcpOp) (other : ∀ maxLen, op ≠ .recv maxLen) :
    ∃ moved ≤ tcpBufSize + 1, Advances env io (tcpStep (env, op) io) moved := by
  cases op with
  | send data => exact ⟨0, Nat.zero_le _, (emits_tcpSend env io data).advances⟩
  | recv maxLen => exact absurd rfl (other maxLen)
  | segment s =>
    show ∃ moved ≤ tcpBufSize + 1, Advances env io (tcpSegment env s io) moved
    unfold tcpSegment
    split
    · exact ⟨0, Nat.zero_le _, Emits.nothing.advances⟩
    split
    · exact ⟨0, Nat.zero_le _, .modify _ rfl rfl rfl⟩
    · exact advances_tcpHandleConn io s
  | tick => exact ⟨0, Nat.zero_le _, advances_tcpTickConn io⟩
  | close => exact ⟨0, Nat.zero_le _, advances_tcpClose io⟩

end Segment

end CatOs.Tcp
