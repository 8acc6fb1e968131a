import CatOs.Net.Tcp.ScoreboardRun
import CatOs.Net.Tcp.WindowOffer

/-! A connection keeps room for every window it has announced, along all of its runs. -/

namespace CatOs.Tcp

structure Ledger where
  io : TcpIo
  /-- How far the next expected byte is from the first. -/
  position : Nat
  edges : List Nat

def rightEdge (position : Nat) (next : Word) (p : TcpOut) : Nat :=
  position - (next - p.ack).toNat + p.window.toNat

def Ledger.step (input : TcpEnv × TcpOp) (l : Ledger) : Ledger :=
  let io := tcpStep input l.io
  let position := l.position + (io.conn.rcvNxt - l.io.conn.rcvNxt).toNat
  { io := io
    position := position
    edges := l.edges ++
      (io.wire.drop l.io.wire.length).map (rightEdge position io.conn.rcvNxt) }

def Ledger.start (io : TcpIo) : Ledger :=
  { io := io, position := 0, edges := io.wire.map (rightEdge 0 io.conn.rcvNxt) }

structure Ledger.Ok (l : Ledger) : Prop where
  room : ∀ edge ∈ l.edges, edge + l.io.conn.rx.rxn ≤ l.position + tcpBufSize
  whole : ∀ p ∈ l.io.wire, p.window = 0 ∨ tcpMss ≤ p.window.toNat

structure NextData (c : TcpConn) (s : TcpIn) : Prop where
  used : c.used = true
  established : c.state = .established
  keeps : s.has tcpFlagRst = false
  inOrder : s.seq = c.rcvNxt
  short : s.data.length ≤ tcpMss

structure Ledger.TakesWhole (l : Ledger) (s : TcpIn) (after : Ledger) : Prop where
  advances : l.position + s.data.length ≤ after.position
  bytes : after.io.conn.rx.rxb.read l.io.conn.rx.rxn s.data.length = s.data

def Delivered (input : TcpEnv × TcpOp) (l : Ledger) : Prop :=
  (∀ k, input.1.outcome k = .sent) ∧
    ∀ maxLen, input.2 = .recv maxLen → l.io.conn.state ≠ .synReceived

structure Announced (io : TcpIo) : Prop where
  last : lastWindow io.wire 0 = io.conn.advWin
  shut : io.conn.advWin = 0 → tcpBufSize < io.conn.rx.rxn + tcpMss

section Numbers

variable {env : TcpEnv} {io next : TcpIo} {moved : Nat}

theorem Advances.distance (advances : Advances env io next moved) (small : moved ≤ tcpBufSize + 1) :
    (next.conn.rcvNxt - io.conn.rcvNxt).toNat = moved := by
  rw [advances.number, add_sub_cancel_left, lenWord, BitVec.toNat_ofNat]
  simp only [tcpBufSize] at small
  omega

theorem rightEdge_of_offers {p : TcpOut} {position : Nat} (advances : Advances env io next moved)
    (small : moved ≤ tcpBufSize + 1) (offers : Offers io.conn moved next.conn p) :
    rightEdge (position + moved) next.conn.rcvNxt p + next.conn.rx.rxn ≤
      position + moved + tcpBufSize := by
  obtain ⟨j, within, ack, edge⟩ := offers.edge
  -- The segment acknowledges a byte between the two expected ones.
  have behind : (next.conn.rcvNxt - p.ack).toNat = moved - j := by
    have numbers : next.conn.rcvNxt - p.ack = lenWord (moved - j) := by
      rw [advances.number, ack, add_sub_add_left_eq_sub, sub_eq_iff_eq_add]
      simp only [lenWord, ← BitVec.ofNat_add]
      congr 1
      omega
    rw [numbers, lenWord, BitVec.toNat_ofNat]
    simp only [tcpBufSize] at small
    omega
  unfold rightEdge
  rw [behind]
  omega

theorem lastWindow_cases (sent : List TcpOut) (before : Half) :
    lastWindow sent before = before ∨ ∃ p ∈ sent, lastWindow sent before = p.window := by
  unfold lastWindow
  cases last : sent.getLast? with
  | none => exact .inl rfl
  | some p => exact .inr ⟨p, List.mem_of_getLast? last, rfl⟩

end Numbers

section Reads

variable (env : TcpEnv) (io : TcpIo)

theorem emits_tcpWindowUpdateAck : Emits env io (tcpWindowUpdateAck env io) := by
  simp only [tcpWindowUpdateAck]
  split
  · exact .nothing
  split
  · exact .tcpPutCtl tcpFlagAck _ (by decide) (by decide)
  · exact .nothing

theorem announced_tcpWindowUpdateAck (success : ∀ k, env.outcome k = .sent)
    (established : io.conn.state = .established) (last : lastWindow io.wire 0 = io.conn.advWin) :
    Announced (tcpWindowUpdateAck env io) := by
  have emits := emits_tcpWindowUpdateAck env io
  obtain ⟨sent, wire, built, announced⟩ := emits.wire
  have same := (receive_of_eraseSender emits.side).2
  have remembered : lastWindow (tcpWindowUpdateAck env io).wire 0 =
      (tcpWindowUpdateAck env io).conn.advWin := by
    rw [wire, lastWindow_append, last, announced success]
  refine ⟨remembered, ?_⟩
  rw [same]
  intro closed
  rcases tcpAdvertiseWindow_cases io.conn with full | ⟨-, whole⟩
  · exact full.2
  -- With room for a full segment a closed window would have been reopened.
  · have open_ : tcpAdvertiseWindow io.conn ≠ 0 := by
      simp only [tcpMss] at whole
      omega
    exfalso
    simp only [tcpWindowUpdateAck, established, ne_eq, not_true_eq_false, if_false] at closed
    split at closed
    · have sentWindow : (tcpPutCtl env io tcpFlagAck io.conn.sndNxt).conn.advWin =
          BitVec.ofNat 16 (tcpAdvertiseWindow io.conn) := by
        simp only [tcpPutCtl, tcpPutPkt, success, if_true]
        rfl
      rw [sentWindow] at closed
      have zero := toNat_advertised io.conn
      rw [closed] at zero
      exact open_ zero.symm
    · rename_i silent
      rw [closed] at silent
      exact silent ⟨open_, Nat.pos_of_ne_zero open_, Nat.zero_le _⟩

end Reads

section Steps

variable {l : Ledger}

theorem Ledger.Ok.advance (ok : l.Ok) {env : TcpEnv} {op : TcpOp} {moved : Nat}
    (small : moved ≤ tcpBufSize + 1)
    (advances : Advances env l.io (tcpStep (env, op) l.io) moved) : (l.step (env, op)).Ok := by
  obtain ⟨sent, wire, offers, -⟩ := advances.wire
  have distance := advances.distance small
  have fresh : (tcpStep (env, op) l.io).wire.drop l.io.wire.length = sent := by
    rw [wire, List.drop_left]
  constructor
  · intro edge member
    simp only [Ledger.step, distance, fresh] at member ⊢
    rcases List.mem_append.mp member with earlier | new
    · have kept := ok.room edge earlier
      have most := advances.most
      omega
    · obtain ⟨p, listed, rfl⟩ := List.mem_map.mp new
      exact rightEdge_of_offers advances small (offers p listed)
  · intro p member
    simp only [Ledger.step, wire] at member
    rcases List.mem_append.mp member with earlier | new
    · exact ok.whole p earlier
    · exact (offers p new).whole

theorem Ledger.Ok.recv (ok : l.Ok) (env : TcpEnv) (maxLen : Nat) :
    (l.step (env, .recv maxLen)).Ok := by
  rcases tcpRecv_cases env l.io maxLen with same | ⟨n, read⟩
  · have step : tcpStep (env, .recv maxLen) l.io = l.io := same
    refine ok.advance (Nat.zero_le _) ?_
    rw [step]
    exact Emits.nothing.advances
  · -- The bytes are taken out first, which only makes room.
    have step : tcpStep (env, .recv maxLen) l.io = tcpWindowUpdateAck env (readOut l.io n) := read
    have advances := (emits_tcpWindowUpdateAck env (readOut l.io n)).advances
    obtain ⟨sent, wire, offers, -⟩ := advances.wire
    have less : (readOut l.io n).conn.rx.rxn ≤ l.io.conn.rx.rxn := Nat.sub_le _ _
    have distance := advances.distance (Nat.zero_le _)
    have fresh : (tcpWindowUpdateAck env (readOut l.io n)).wire.drop l.io.wire.length = sent := by
      rw [wire]
      exact List.drop_left
    constructor
    · intro edge member
      have here : (tcpWindowUpdateAck env (readOut l.io n)).conn.rcvNxt - l.io.conn.rcvNxt = 0 :=
        BitVec.eq_of_toNat_eq distance
      simp only [Ledger.step, step, fresh] at member ⊢
      rw [here] at member ⊢
      rcases List.mem_append.mp member with earlier | new
      · have kept := ok.room edge earlier
        have most := advances.most
        show edge + _ ≤ l.position + 0 + tcpBufSize
        omega
      · obtain ⟨p, listed, rfl⟩ := List.mem_map.mp new
        exact rightEdge_of_offers advances (Nat.zero_le _) (offers p listed)
    · intro p member
      simp only [Ledger.step, step, wire] at member
      rcases List.mem_append.mp member with earlier | new
      · exact ok.whole p earlier
      · exact (offers p new).whole

theorem Ledger.Ok.step (ok : l.Ok) (input : TcpEnv × TcpOp) : (l.step input).Ok := by
  obtain ⟨env, op⟩ := input
  by_cases reads : ∃ maxLen, op = .recv maxLen
  · obtain ⟨maxLen, rfl⟩ := reads
    exact ok.recv env maxLen
  · obtain ⟨moved, small, advances⟩ := @advances_tcpStep env l.io op
      (fun maxLen read => reads ⟨maxLen, read⟩)
    exact ok.advance small advances

theorem Announced.advance {env : TcpEnv} {io next : TcpIo} {moved : Nat} (held : Announced io)
    (advances : Advances env io next moved) (success : ∀ k, env.outcome k = .sent) :
    Announced next := by
  obtain ⟨sent, wire, offers, announced⟩ := advances.wire
  constructor
  · rw [wire, lastWindow_append, held.last, announced success]
  · intro closed
    rw [announced success] at closed
    rcases lastWindow_cases sent io.conn.advWin with same | ⟨p, listed, window⟩
    · have full := held.shut (same.symm.trans closed)
      have least := advances.least
      omega
    · exact (offers p listed).shut (window.symm.trans closed)

theorem Announced.step {input : TcpEnv × TcpOp} (held : l.io.conn.state.isOpen → Announced l.io)
    (delivered : Delivered input l) (opened : (l.step input).io.conn.state.isOpen) :
    Announced (l.step input).io := by
  obtain ⟨env, op⟩ := input
  have before : l.io.conn.state.isOpen = true := by
    by_contra notOpen
    rw [Bool.not_eq_true] at notOpen
    have still : (tcpStep (env, op) l.io).conn.state.isOpen = false :=
      (move_tcpStep l.io _).isOpen notOpen
    exact absurd (opened.symm.trans still) (by decide)
  by_cases reads : ∃ maxLen, op = .recv maxLen
  · obtain ⟨maxLen, rfl⟩ := reads
    have established : l.io.conn.state = .established :=
      (TcpState.eq_of_isOpen before).resolve_left (delivered.2 maxLen rfl)
    show Announced (tcpRecv env l.io maxLen).1
    rcases tcpRecv_cases env l.io maxLen with same | ⟨n, read⟩
    · rw [same]
      exact held before
    · rw [read]
      exact announced_tcpWindowUpdateAck env _ delivered.1 established (held before).last
  · obtain ⟨moved, -, advances⟩ := @advances_tcpStep env l.io op
      (fun maxLen read => reads ⟨maxLen, read⟩)
    exact (held before).advance advances delivered.1

end Steps

section Runs

variable (env : TcpEnv) (s : TcpIn) (srcIp isn : Word) (c : TcpConn)

theorem ok_start : (Ledger.start (tcpSynAccept env s srcIp isn c)).Ok := by
  have advances : Advances env (startIo (initSynConn s srcIp isn c))
      (tcpSynAccept env s srcIp isn c) 0 := by
    have put : Advances env (startIo (initSynConn s srcIp isn c)) (tcpPutCtl env
        (startIo (initSynConn s srcIp isn c)) tcpFlagSynack (initSynConn s srcIp isn c).sndIsn) 0 :=
      (Emits.tcpPutCtl tcpFlagSynack _ (by decide) (by decide)).advances
    exact put.trans (.modify _ rfl rfl rfl)
  obtain ⟨sent, wire, offers, -⟩ := advances.wire
  have all : (tcpSynAccept env s srcIp isn c).wire = sent := wire
  constructor
  · intro edge member
    simp only [Ledger.start, all] at member ⊢
    obtain ⟨p, listed, rfl⟩ := List.mem_map.mp member
    exact @rightEdge_of_offers _ _ _ _ p 0 advances (Nat.zero_le _) (offers p listed)
  · intro p member
    simp only [Ledger.start, all] at member
    exact (offers p member).whole

theorem announced_start (success : ∀ k, env.outcome k = .sent) :
    Announced (tcpSynAccept env s srcIp isn c) := by
  have fits : tcpAdvertiseWindow (initSynConn s srcIp isn c) ≠ 0 := by
    have empty : (initSynConn s srcIp isn c).rx.rxn = 0 := by
      obtain ⟨_, _, _, claimed⟩ := initSynConn_fields c s srcIp isn
      rw [claimed]
      rfl
    rw [tcpAdvertiseWindow, empty]
    decide
  have sent : (tcpSynAccept env s srcIp isn c).wire =
        [buildSegment (initSynConn s srcIp isn c) tcpFlagSynack (initSynConn s srcIp isn c).sndIsn
          (initSynConn s srcIp isn c).rcvNxt []] ∧
      (tcpSynAccept env s srcIp isn c).conn.advWin =
        BitVec.ofNat 16 (tcpAdvertiseWindow (initSynConn s srcIp isn c)) := by
    simp only [tcpSynAccept, tcpResendSynack, tcpPutCtl, tcpPutPkt, success, if_true]
    exact ⟨rfl, rfl⟩
  constructor
  · rw [sent.1, sent.2]
    rfl
  · rw [sent.2]
    intro closed
    have zero := toNat_advertised (initSynConn s srcIp isn c)
    rw [closed] at zero
    exact absurd zero.symm fits

theorem Ledger.Ok.of_run {l : Ledger} (run : Run Ledger.step (fun _ _ => True)
    (Ledger.start (tcpSynAccept env s srcIp isn c)) l) : l.Ok :=
  run.invariant Ledger.Ok (ok_start env s srcIp isn c) fun input _ _ ok => ok.step input

theorem takesWhole_of_fits (now : TcpEnv) {l : Ledger} {next : TcpIn}
    (data : NextData l.io.conn next)
    (fits : l.io.conn.rx.rxn + next.data.length ≤ tcpBufSize) :
    l.TakesWhole next (l.step (now, .segment next)) := by
  -- Window and acknowledgement come first, and leave the receive side alone.
  let noted := l.io.modify (tcpHandleWindow now.ticks next)
  let answered := tcpHandleAck now next l.io.conn.peerWin noted
  have side : answered.conn.eraseSender = l.io.conn.eraseSender :=
    (eraseSender_tcpHandleAck ..).trans (eraseSender_tcpHandleWindow ..)
  have state := (TcpConn.state_of_eraseSender side).trans data.established
  obtain ⟨expected, rx⟩ := receive_of_eraseSender side
  have live : isStale next l.io.conn = false := by
    simp [isStale, data.established]
  have handled : tcpStep (now, .segment next) l.io = tcpHandleOpen now next answered := by
    show tcpSegment now next l.io = _
    rw [tcpSegment, data.used, live]
    show tcpHandleConn now next l.io = _
    simp only [tcpHandleConn, data.established, data.keeps]
    show tcpHandleState now next answered = _
    rw [tcpHandleState, state]
  obtain ⟨moved, small, advances, takes⟩ := @advances_tcpHandleOpen now answered next
  have inOrder : InOrder answered.conn next.seq next.data := by
    refine ⟨data.inOrder.trans expected.symm, data.short, ?_⟩
    rw [rx]
    exact fits
  have whole := takes inOrder
  have distance := advances.distance small
  rw [expected, ← handled] at distance
  constructor
  · show l.position + next.data.length ≤ l.position + _
    rw [distance]
    have far := whole.far
    omega
  · show (tcpStep (now, .segment next) l.io).conn.rx.rxb.read l.io.conn.rx.rxn _ = _
    rw [handled, ← rx]
    exact whole.bytes

/--
The announced window is never taken back.

Whatever happens to a connection, no window is a silly one, and the next data within any window
announced so far is taken whole; and while its segments go out, no read leaves a closed window
behind that could be opened.
-/
theorem announced_window_kept :
    (∀ l, Run Ledger.step (fun _ _ => True) (Ledger.start (tcpSynAccept env s srcIp isn c)) l →
      (∀ p ∈ l.io.wire, p.window = 0 ∨ tcpMss ≤ p.window.toNat) ∧
      ∀ now next, NextData l.io.conn next →
        (∃ edge ∈ l.edges, l.position + next.data.length ≤ edge) →
        l.TakesWhole next (l.step (now, .segment next))) ∧
    ((∀ k, env.outcome k = .sent) →
      ∀ l, Run Ledger.step Delivered (Ledger.start (tcpSynAccept env s srcIp isn c)) l →
        ∀ now maxLen, (∀ k, now.outcome k = .sent) → l.io.conn.state = .established →
          ∀ p, (tcpRecv now l.io maxLen).1.wire.getLast? = some p → p.window = 0 →
            tcpBufSize - (tcpRecv now l.io maxLen).1.conn.rx.rxn < tcpMss) := by
  constructor
  · intro l run
    have ok := Ledger.Ok.of_run env s srcIp isn c run
    refine ⟨ok.whole, ?_⟩
    intro now next data offered
    obtain ⟨edge, listed, within⟩ := offered
    have room := ok.room edge listed
    exact takesWhole_of_fits now data (by omega)
  · intro success l run now maxLen delivered established p last closed
    have held := run.invariant (fun l => l.io.conn.state.isOpen → Announced l.io)
      (fun _ => announced_start env s srcIp isn c success)
      (fun input state may held => Announced.step held may)
    have may : Delivered (now, .recv maxLen) l := by
      refine ⟨delivered, fun _ _ => ?_⟩
      rw [established]
      decide
    have still : (tcpRecv now l.io maxLen).1.conn.state = .established :=
      (state_tcpRecv now l.io maxLen).trans established
    have opened : (l.step (now, .recv maxLen)).io.conn.state.isOpen := by
      show (tcpRecv now l.io maxLen).1.conn.state.isOpen = true
      rw [still]
      rfl
    have after : Announced (tcpRecv now l.io maxLen).1 := Announced.step held may opened
    have shut : (tcpRecv now l.io maxLen).1.conn.advWin = 0 := by
      rw [← after.last, lastWindow, last]
      exact closed
    have full := after.shut shut
    simp only [tcpMss] at full ⊢
    omega

/-- Two bytes that the first announcement covers, and the window after they have been read. -/
theorem announced_window_kept_two :
    let env : TcpEnv := { ticks := 5, outcome := fun _ => .sent }
    let data := { plainIn tcpFlagAck 101 8 500 with data := [65, 66] }
    let start := Ledger.start (tcpSynAccept env (plainIn tcpFlagSyn 100 0 500) 1 7 zeroConn)
    let opened := runInputs Ledger.step [(env, .segment (plainIn tcpFlagAck 101 8 500))] start
    let taken := opened.step (env, .segment data)
    NextData opened.io.conn data ∧ opened.edges = [4096] ∧ opened.TakesWhole data taken ∧
      taken.position = 2 ∧
      ∀ p, (tcpRecv env taken.io 1).1.wire.getLast? = some p → p.window = 0 →
        tcpBufSize - (tcpRecv env taken.io 1).1.conn.rx.rxn < tcpMss := by
  intro env data start opened taken
  obtain ⟨room, reopened⟩ := announced_window_kept env (plainIn tcpFlagSyn 100 0 500) 1 7 zeroConn
  have next : NextData opened.io.conn data :=
    { used := by decide, established := by decide, keeps := by decide
      inOrder := by decide, short := by decide }
  have edges : opened.edges = [4096] := by decide
  have within : ∃ edge ∈ opened.edges, opened.position + data.data.length ≤ edge := by
    rw [edges]
    exact ⟨4096, List.mem_singleton_self _, by decide⟩
  have run : Run Ledger.step (fun _ _ => True) start opened :=
    Run.start.inputs _ (allAllowed_true _ _)
  have delivered : ∀ s l, Delivered (env, .segment s) l := fun _ _ =>
    ⟨fun _ => rfl, fun _ read => by cases read⟩
  have arrived : Run Ledger.step Delivered start taken :=
    (Run.start.step _ (delivered _ _)).step _ (delivered _ _)
  exact ⟨next, edges, (room opened run).2 env data next within, by decide,
    reopened (fun _ => rfl) taken arrived env 1 (fun _ => rfl) (by decide)⟩

end Runs

end CatOs.Tcp
