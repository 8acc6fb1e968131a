import CatOs.Net.Tcp.Deadlines
import CatOs.Net.Tcp.OooStore

/-! The congestion window: what each event adds to it, and what a wrap-around does. -/

namespace CatOs.Tcp

structure Congestion where
  cwnd : Word
  ssthresh : Word
  dupacks : Word
  fastRecovery : Bool
  recoverSeq : Word

def TcpConn.congestion (c : TcpConn) : Congestion :=
  { cwnd := c.cwnd, ssthresh := c.ssthresh, dupacks := c.dupacks, fastRecovery := c.fastRecovery
    recoverSeq := c.recoverSeq }

structure WindowOk (c : TcpConn) : Prop where
  cwnd : tcpMss ≤ c.cwnd.toNat
  ssthresh : 2 * tcpMss ≤ c.ssthresh.toNat
  /-- Sending is never blocked while the peer's window is open. -/
  sends : c.peerWin ≠ 0 → sendWin c ≠ 0

def Processed (s : TcpIn) (c : TcpConn) : Prop :=
  c.used = true ∧ isStale s c = false ∧
    ¬(c.state = .synReceived ∧ s.has tcpFlagSyn = true ∧ s.seq = c.rcvIsn) ∧
    s.has tcpFlagRst = false ∧ s.has tcpFlagAck = true

def Duplicates (s : TcpIn) (c : TcpConn) : Prop :=
  s.ack = c.sndUna ∧ c.inFlight ≠ 0 ∧ s.window ≤ c.peerWin

def Acknowledges (s : TcpIn) (c : TcpConn) : Prop :=
  tcpSeqAfter s.ack c.sndUna = true ∧ tcpSeqAfter s.ack c.sndNxt = false

def EndsRecovery (s : TcpIn) (c : TcpConn) : Prop :=
  c.fastRecovery = true ∧ (tcpSeqAfter s.ack c.recoverSeq = true ∨ s.ack = c.recoverSeq)

def cwndGrowth (acked : Nat) (c : TcpConn) : Nat :=
  if acked = 0 then 0
  else if c.cwnd < c.ssthresh then min acked tcpMss
  else max 1 (tcpMss * acked / c.cwnd.toNat)

structure SegmentKeepsWindow (s : TcpIn) (c : TcpConn) : Prop where
  inflates : Duplicates s c → c.fastRecovery = true → 3 < c.dupacks + 1 →
    c.cwnd.toNat + tcpMss < 2 ^ 32
  grows : Acknowledges s c → ¬EndsRecovery s c →
    c.cwnd.toNat + cwndGrowth (min (s.ack - c.sndUna).toNat c.snd.sndUsed) c < 2 ^ 32

def KeepsWindow (input : TcpEnv × TcpOp) (io : TcpIo) : Prop :=
  ∀ s, input.2 = .segment s → Processed s io.conn → SegmentKeepsWindow s io.conn

section Frames

variable (env : TcpEnv) (io : TcpIo) (c : TcpConn) (ticks : Word)

theorem congestion_tcpPutPkt (flags : Flags) (seq ack : Word) (data : List UInt8) :
    (tcpPutPkt env io flags seq ack data).1.conn.congestion = io.conn.congestion := by
  obtain ⟨window, sent⟩ := tcpPutPkt_conn env io flags seq ack data
  rw [sent]
  rfl

theorem congestion_tcpPutCtl (flags : Flags) (seq : Word) :
    (tcpPutCtl env io flags seq).conn.congestion = io.conn.congestion :=
  congestion_tcpPutPkt ..

theorem congestion_tcpPersistArm : (tcpPersistArm ticks c).congestion = c.congestion := by
  unfold tcpPersistArm
  split <;> rfl

theorem congestion_noteSent (n : Nat) : (noteSent ticks n c).congestion = c.congestion := by
  obtain ⟨_, noted⟩ := noteSent_fields ticks c n
  rw [noted]
  rfl

theorem congestion_tcpXmitPending :
    (tcpXmitPending env io).conn.congestion = io.conn.congestion :=
  tcpXmitPending_frame env io TcpConn.congestion (fun _ _ => rfl)
    (fun c => congestion_tcpPersistArm c env.ticks) fun n c => congestion_noteSent c env.ticks n

theorem congestion_sackRetransmit :
    (sackRetransmit env io).1.conn.congestion = io.conn.congestion :=
  sackRetransmit_frame env io TcpConn.congestion (fun _ _ => rfl) fun _ _ => rfl

theorem congestion_tcpHandleWindow (s : TcpIn) :
    (tcpHandleWindow ticks s c).congestion = c.congestion := by
  obtain ⟨_, _, _, _, _, handled⟩ := tcpHandleWindow_fields ticks c s
  rw [handled]
  rfl

theorem congestion_tcpHandleState (s : TcpIn) :
    (tcpHandleState env s io).conn.congestion = io.conn.congestion :=
  eq_of_erased (eraseTurn_tcpHandleState env s io) TcpConn.congestion fun _ => rfl

end Frames

section Growth

variable {c : TcpConn}

def Congestion.Ok (g : Congestion) : Prop :=
  tcpMss ≤ g.cwnd.toNat ∧ 2 * tcpMss ≤ g.ssthresh.toNat

theorem windowOk_iff : WindowOk c ↔ c.congestion.Ok := by
  constructor
  · intro ok
    exact ⟨ok.cwnd, ok.ssthresh⟩
  · intro ok
    refine { cwnd := ok.1, ssthresh := ok.2, sends := ?_ }
    intro peer
    have cwnd : tcpMss ≤ c.cwnd.toNat := ok.1
    unfold sendWin
    split
    · -- Widening the peer's window does not make it zero.
      intro zero
      apply peer
      apply BitVec.eq_of_toNat_eq
      have widened := congrArg BitVec.toNat zero
      rw [BitVec.toNat_setWidth] at widened
      have small := c.peerWin.isLt
      rw [Nat.mod_eq_of_lt (by omega)] at widened
      exact widened
    · intro zero
      rw [zero] at cwnd
      exact absurd cwnd (by decide)

theorem cwnd_tcpAckCwnd {acked : Nat} (small : acked ≤ tcpBufSize) (cwnd : tcpMss ≤ c.cwnd.toNat) :
    (tcpAckCwnd acked c).cwnd = c.cwnd + lenWord (cwndGrowth acked c) := by
  unfold tcpAckCwnd cwndGrowth
  by_cases nothing : acked = 0
  · rw [if_pos nothing, if_pos nothing]
    exact (add_zero _).symm
  rw [if_neg nothing, if_neg nothing]
  by_cases slow : c.cwnd < c.ssthresh
  · rw [if_pos slow, if_pos slow]
    show c.cwnd + lenWord (if acked > tcpMss then tcpMss else acked) = _
    by_cases large : acked > tcpMss
    · rw [if_pos large, Nat.min_eq_right (Nat.le_of_lt large)]
    · rw [if_neg large, Nat.min_eq_left (Nat.not_lt.mp large)]
  · rw [if_neg slow, if_neg slow]
    have positive : c.cwnd ≠ 0 := by
      intro zero
      rw [zero] at cwnd
      exact absurd cwnd (by decide)
    -- The product fits in a word, so that the division is the one of numbers.
    have divided : (lenWord (tcpMss * acked) / c.cwnd).toNat = tcpMss * acked / c.cwnd.toNat := by
      rw [BitVec.toNat_udiv, lenWord, BitVec.toNat_ofNat, Nat.mod_eq_of_lt]
      simp only [tcpMss, tcpBufSize] at small ⊢
      omega
    have zero : lenWord (tcpMss * acked) / c.cwnd = 0 ↔ tcpMss * acked / c.cwnd.toNat = 0 := by
      rw [← divided]
      exact (BitVec.toNat_eq (y := 0)).trans Iff.rfl
    simp only [ne_eq, positive, not_false_eq_true, if_true]
    show c.cwnd + (if ¬lenWord (tcpMss * acked) / c.cwnd = 0 then _ else 1) = _
    by_cases none : lenWord (tcpMss * acked) / c.cwnd = 0
    · rw [if_neg (not_not_intro none), zero.mp none]
      rfl
    · rw [if_pos none]
      have some := mt zero.mpr none
      have back : ∀ word : Word, lenWord word.toNat = word := fun word => by
        rw [lenWord, BitVec.ofNat_toNat, BitVec.setWidth_eq]
      rw [Nat.max_eq_right (Nat.one_le_iff_ne_zero.mpr some), ← divided, back]

theorem growth_iff {acked : Nat} (small : acked ≤ tcpBufSize) (cwnd : tcpMss ≤ c.cwnd.toNat) :
    tcpMss ≤ (c.cwnd + lenWord (cwndGrowth acked c)).toNat ↔
      c.cwnd.toNat + cwndGrowth acked c < 2 ^ 32 := by
  -- A window close to the end of the numbers grows by one number only.
  have growth : cwndGrowth acked c ≤ tcpMss ∨
      (c.cwnd.toNat + cwndGrowth acked c < 2 ^ 32 ∧ cwndGrowth acked c < 2 ^ 32) := by
    unfold cwndGrowth
    split
    · exact .inl (Nat.zero_le _)
    split
    · exact .inl (Nat.min_le_right _ _)
    · by_cases large : tcpMss * acked < c.cwnd.toNat
      · left
        rw [Nat.div_eq_of_lt large]
        decide
      · right
        have divided : tcpMss * acked / c.cwnd.toNat ≤ tcpMss * acked := Nat.div_le_self _ _
        simp only [tcpMss, tcpBufSize] at small large divided ⊢
        omega
  have bound := c.cwnd.isLt
  rw [BitVec.toNat_add, lenWord, BitVec.toNat_ofNat]
  simp only [tcpMss] at growth cwnd ⊢
  omega

theorem inflate_iff (cwnd : tcpMss ≤ c.cwnd.toNat) :
    tcpMss ≤ (c.cwnd + lenWord tcpMss).toNat ↔ c.cwnd.toNat + tcpMss < 2 ^ 32 := by
  have bound := c.cwnd.isLt
  rw [BitVec.toNat_add, lenWord, BitVec.toNat_ofNat]
  simp only [tcpMss] at cwnd ⊢
  omega

theorem loss_threshold (inFlight : Word) :
    2 * tcpMss ≤ (tcpLossWindow c inFlight).ssthresh.toNat ∧
      tcpMss ≤ ((tcpLossWindow c inFlight).ssthresh + lenWord (3 * tcpMss)).toNat := by
  have half : (inFlight / 2).toNat < 2 ^ 31 := by
    rw [BitVec.toNat_udiv]
    have bound := inFlight.isLt
    show inFlight.toNat / 2 < 2 ^ 31
    omega
  have threshold : 2 * tcpMss ≤ (tcpLossWindow c inFlight).ssthresh.toNat ∧
      (tcpLossWindow c inFlight).ssthresh.toNat < 2 ^ 31 := by
    show 2 * tcpMss ≤ (if inFlight / 2 < lenWord (2 * tcpMss) then lenWord (2 * tcpMss)
      else inFlight / 2).toNat ∧ (if inFlight / 2 < lenWord (2 * tcpMss) then lenWord (2 * tcpMss)
      else inFlight / 2).toNat < 2 ^ 31
    split
    · decide
    · rename_i large
      exact ⟨BitVec.not_lt.mp large, half⟩
  refine ⟨threshold.1, ?_⟩
  rw [BitVec.toNat_add, lenWord, BitVec.toNat_ofNat]
  simp only [tcpMss] at threshold ⊢
  omega

end Growth

section Steps

variable (env : TcpEnv) {io : TcpIo}

theorem congestion_tcpFastRetransmit (io : TcpIo) (inFlight : Word) (sackRetx : Bool) :
    ∃ recovering, (tcpFastRetransmit env inFlight sackRetx io).conn.congestion =
      { (enterRecovery inFlight io.conn).congestion with fastRecovery := recovering } := by
  simp only [tcpFastRetransmit]
  obtain ⟨tried, trying⟩ : ∃ tried, (if sackRetx then (io.modify (enterRecovery inFlight), true)
      else sackRetransmit env (io.modify (enterRecovery inFlight))) = tried := ⟨_, rfl⟩
  have before : tried.1.conn.congestion = (enterRecovery inFlight io.conn).congestion := by
    rw [← trying]
    split
    · rfl
    · exact congestion_sackRetransmit ..
  rw [trying]
  split
  · exact ⟨true, before⟩
  generalize (if inFlight.toNat > tcpMss then tcpMss else inFlight.toNat) = len
  rw [← congestion_tcpPutPkt env tried.1 (tcpFlagAck ||| tcpFlagPsh) tried.1.conn.sndUna
    tried.1.conn.rcvNxt (tried.1.conn.snd.sndb.read 0 len)] at before
  split
  · exact ⟨true, before⟩
  · exact ⟨false, congrArg (fun g : Congestion => { g with fastRecovery := false }) before⟩

theorem ok_tcpFastRetransmit (io : TcpIo) (inFlight : Word) (sackRetx : Bool) :
    (tcpFastRetransmit env inFlight sackRetx io).conn.congestion.Ok := by
  have loss := @loss_threshold io.conn inFlight
  obtain ⟨recovering, entered⟩ := congestion_tcpFastRetransmit env io inFlight sackRetx
  rw [entered]
  exact ⟨loss.2, loss.1⟩

theorem ok_tcpHandleDupAck (ok : io.conn.congestion.Ok) (inFlight : Word) :
    (tcpHandleDupAck env inFlight io).conn.congestion.Ok ↔
      (io.conn.fastRecovery = true → 3 < io.conn.dupacks + 1 →
        io.conn.cwnd.toNat + tcpMss < 2 ^ 32) := by
  have tried := congestion_sackRetransmit env (io.modify countDupAck)
  have counted : (sackRetransmit env (io.modify countDupAck)).1.conn.dupacks =
      io.conn.dupacks + 1 := congrArg Congestion.dupacks tried
  have recovering : (sackRetransmit env (io.modify countDupAck)).1.conn.fastRecovery =
      io.conn.fastRecovery := congrArg Congestion.fastRecovery tried
  have window : (sackRetransmit env (io.modify countDupAck)).1.conn.cwnd = io.conn.cwnd :=
    congrArg Congestion.cwnd tried
  simp only [tcpHandleDupAck, counted, recovering]
  by_cases third : io.conn.dupacks + 1 = 3
  · -- The third one sets the window anew.
    rw [if_pos third]
    have idle : ¬(3 : Word) < io.conn.dupacks + 1 := by
      rw [third]
      decide
    exact ⟨fun _ _ more => absurd more idle, fun _ => ok_tcpFastRetransmit env _ inFlight _⟩
  rw [if_neg third]
  by_cases inflates : io.conn.fastRecovery = true ∧ io.conn.dupacks + 1 > 3
  · have inflated : ∀ d : TcpConn, (inflateCwnd d).congestion =
        { d.congestion with cwnd := d.cwnd + lenWord tcpMss } := fun _ => rfl
    have counting : (io.modify countDupAck).conn.congestion.ssthresh = io.conn.ssthresh := rfl
    rw [if_pos inflates, congestion_tcpXmitPending, TcpIo.modify_conn, inflated, tried, window,
      Congestion.Ok, counting, inflate_iff ok.1]
    exact ⟨fun kept _ _ => kept.1, fun kept => ⟨kept inflates.1 inflates.2, ok.2⟩⟩
  · rw [if_neg inflates]
    have same : (sackRetransmit env (io.modify countDupAck)).1.conn.congestion.Ok := by
      rw [Congestion.Ok, tried]
      exact ok
    exact ⟨fun _ recovering more => absurd ⟨recovering, more⟩ inflates, fun _ => same⟩

theorem ok_tcpAckAdvance {c : TcpConn} (ok : c.congestion.Ok) (ticks : Word) (s : TcpIn) :
    (tcpAckAdvance ticks s.ack c).congestion.Ok ↔ (¬EndsRecovery s c →
      c.cwnd.toNat + cwndGrowth (min (s.ack - c.sndUna).toNat c.snd.sndUsed) c < 2 ^ 32) := by
  obtain ⟨srtt, rttvar, rto, measured⟩ := tcpAckRtt_fields ticks c s.ack
  generalize amount : min (s.ack - c.sndUna).toNat c.snd.sndUsed = acked
  have small : acked ≤ tcpBufSize := by
    have held := c.snd.sndUsed_le
    omega
  -- What is cut from the buffer and the scoreboard does not matter to the window.
  obtain ⟨cut, cutting⟩ : ∃ cut, tcpTxAck { tcpAckRtt ticks s.ack c with
    sndUna := s.ack, snd := (tcpAckRtt ticks s.ack c).snd.ack acked } s.ack = cut := ⟨_, rfl⟩
  have kept : cut.congestion = c.congestion := by
    rw [← cutting, measured]
    rfl
  have grown : (tcpAckCwnd acked cut).congestion =
      { c.congestion with cwnd := c.cwnd + lenWord (cwndGrowth acked c) } := by
    have cwnd : cut.cwnd = c.cwnd := congrArg Congestion.cwnd kept
    have threshold : cut.ssthresh = c.ssthresh := congrArg Congestion.ssthresh kept
    have growth : cwndGrowth acked cut = cwndGrowth acked c := by
      simp only [cwndGrowth, cwnd, threshold]
    have large : tcpMss ≤ cut.cwnd.toNat := by
      rw [cwnd]
      exact ok.1
    have value := cwnd_tcpAckCwnd small large
    obtain ⟨_, set⟩ := tcpAckCwnd_fields cut acked
    rw [set] at value ⊢
    rw [← cwnd, ← growth, ← kept, ← value]
    rfl
  have recovering : (tcpAckCwnd acked cut).fastRecovery = c.fastRecovery :=
    congrArg Congestion.fastRecovery grown
  have recover : (tcpAckCwnd acked cut).recoverSeq = c.recoverSeq :=
    congrArg Congestion.recoverSeq grown
  have threshold : (tcpAckCwnd acked cut).ssthresh = c.ssthresh :=
    congrArg Congestion.ssthresh grown
  have whole : tcpAckAdvance ticks s.ack c = { tcpAckRecovery s.ack (tcpAckCwnd acked cut) with
      dupacks := 0, rtoBackoff := noBackoff, rtoAttempts := 0 } := by
    rw [tcpAckAdvance, amount, cutting]
  rw [whole]
  show (tcpAckRecovery s.ack (tcpAckCwnd acked cut)).congestion.Ok ↔ _
  unfold tcpAckRecovery
  by_cases ends : EndsRecovery s c
  · have here : (tcpAckCwnd acked cut).fastRecovery = true ∧
        (tcpSeqAfter s.ack (tcpAckCwnd acked cut).recoverSeq = true ∨
          s.ack = (tcpAckCwnd acked cut).recoverSeq) := by
      rw [recovering, recover]
      exact ends
    rw [if_pos here]
    refine ⟨fun _ goesOn => absurd ends goesOn, fun _ => ?_⟩
    show tcpMss ≤ (tcpAckCwnd acked cut).ssthresh.toNat ∧
      2 * tcpMss ≤ (tcpAckCwnd acked cut).ssthresh.toNat
    rw [threshold]
    have held : 2 * tcpMss ≤ c.ssthresh.toNat := ok.2
    exact ⟨by omega, held⟩
  · have here : ¬((tcpAckCwnd acked cut).fastRecovery = true ∧
        (tcpSeqAfter s.ack (tcpAckCwnd acked cut).recoverSeq = true ∨
          s.ack = (tcpAckCwnd acked cut).recoverSeq)) := by
      rw [recovering, recover]
      exact ends
    rw [if_neg here, Congestion.Ok, grown]
    show tcpMss ≤ (c.cwnd + lenWord (cwndGrowth acked c)).toNat ∧ _ ↔ _
    rw [growth_iff small ok.1]
    exact ⟨fun held _ => held.1, fun held => ⟨held ends, ok.2⟩⟩

theorem ok_tcpHandleNewAck (ok : io.conn.congestion.Ok) (s : TcpIn) :
    (tcpHandleNewAck env s.ack io).conn.congestion.Ok ↔ (¬EndsRecovery s io.conn →
      io.conn.cwnd.toNat + cwndGrowth (min (s.ack - io.conn.sndUna).toNat io.conn.snd.sndUsed)
        io.conn < 2 ^ 32) := by
  have timed : ∀ d : TcpConn, (tcpAckTimer env.ticks d).congestion = d.congestion := by
    intro d
    unfold tcpAckTimer
    split
    · rfl
    split <;> rfl
  have tried := congestion_sackRetransmit env (io.modify (tcpAckAdvance env.ticks s.ack))
  have same : (tcpHandleNewAck env s.ack io).conn.congestion =
      (tcpAckAdvance env.ticks s.ack io.conn).congestion := by
    simp only [tcpHandleNewAck]
    rw [TcpIo.modify_conn, timed]
    split
    · exact tried
    · rw [congestion_tcpXmitPending]
      exact tried
  rw [same]
  exact ok_tcpAckAdvance ok env.ticks s

theorem ok_tcpHandleAck (ok : io.conn.congestion.Ok) (s : TcpIn) (ack : s.has tcpFlagAck = true)
    (oldWin : Half) :
    (tcpHandleAck env s oldWin io).conn.congestion.Ok ↔
      (s.ack = io.conn.sndUna ∧ io.conn.inFlight ≠ 0 ∧ io.conn.peerWin ≤ oldWin →
        io.conn.fastRecovery = true → 3 < io.conn.dupacks + 1 →
          io.conn.cwnd.toNat + tcpMss < 2 ^ 32) ∧
      (Acknowledges s io.conn → ¬EndsRecovery s io.conn → io.conn.cwnd.toNat +
        cwndGrowth (min (s.ack - io.conn.sndUna).toNat io.conn.snd.sndUsed) io.conn < 2 ^ 32) := by
  -- Marking the scoreboard changes nothing that the window depends on.
  obtain ⟨tx, -, marking⟩ := marked_fields io
  have held : (io.modify fun c => { c with tx := tx }).conn.congestion.Ok := ok
  have repeats : s.ack = io.conn.sndUna → ¬Acknowledges s io.conn := by
    intro here acknowledges
    have after := acknowledges.1
    rw [here] at after
    simp [tcpSeqAfter] at after
  simp only [tcpHandleAck, ack, Bool.not_true, Bool.false_eq_true, if_false, marking,
    TcpIo.modify_conn]
  by_cases duplicates : s.ack = io.conn.sndUna ∧ io.conn.inFlight ≠ 0 ∧ io.conn.peerWin ≤ oldWin
  · rw [if_pos duplicates, ok_tcpHandleDupAck env held]
    exact ⟨fun kept => ⟨fun _ => kept, fun acknowledges =>
      absurd acknowledges (repeats duplicates.1)⟩, fun kept => kept.1 duplicates⟩
  rw [if_neg duplicates]
  by_cases opens : s.ack = io.conn.sndUna ∧ io.conn.peerWin > oldWin
  · rw [if_pos opens, congestion_tcpXmitPending]
    exact ⟨fun _ => ⟨fun repeated => absurd repeated duplicates, fun acknowledges =>
      absurd acknowledges (repeats opens.1)⟩, fun _ => held⟩
  rw [if_neg opens]
  by_cases acknowledges : Acknowledges s io.conn
  · have here : tcpSeqAfter s.ack io.conn.sndUna = true ∧
        (!tcpSeqAfter s.ack io.conn.sndNxt) = true :=
      ⟨acknowledges.1, by rw [acknowledges.2]; rfl⟩
    rw [if_pos here, ok_tcpHandleNewAck env held]
    exact ⟨fun kept => ⟨fun repeated => absurd repeated duplicates, fun _ => kept⟩,
      fun kept => kept.2 acknowledges⟩
  · have here : ¬(tcpSeqAfter s.ack io.conn.sndUna = true ∧
        (!tcpSeqAfter s.ack io.conn.sndNxt) = true) := by
      intro both
      exact acknowledges ⟨both.1, by simpa using both.2⟩
    rw [if_neg here]
    exact ⟨fun _ => ⟨fun repeated => absurd repeated duplicates, fun other =>
      absurd other acknowledges⟩, fun _ => held⟩

theorem tcpHandleAck_unacked (s : TcpIn) (unacked : s.has tcpFlagAck = false) (oldWin : Half) :
    tcpHandleAck env s oldWin io = io := by
  simp only [tcpHandleAck, unacked, Bool.not_false, if_true]

theorem ok_tcpSegment (ok : io.conn.congestion.Ok) (s : TcpIn) :
    (tcpSegment env s io).conn.congestion.Ok ↔
      (Processed s io.conn → SegmentKeepsWindow s io.conn) := by
  unfold tcpSegment
  by_cases used : io.conn.used = true
  swap
  · rw [if_pos (by simpa using used)]
    exact ⟨fun _ processed => absurd processed.1 used, fun _ => ok⟩
  rw [if_neg (by simpa using used)]
  by_cases stale : isStale s io.conn = true
  · rw [if_pos stale]
    exact ⟨fun _ processed => Bool.noConfusion (stale.symm.trans processed.2.1), fun _ => ok⟩
  rw [if_neg stale]
  rw [Bool.not_eq_true] at stale
  simp only [tcpHandleConn]
  by_cases repeats : io.conn.state = .synReceived ∧ s.has tcpFlagSyn = true ∧ s.seq = io.conn.rcvIsn
  · rw [if_pos repeats]
    have same : (tcpResendSynack env io).conn.congestion = io.conn.congestion :=
      congestion_tcpPutCtl env io tcpFlagSynack io.conn.sndIsn
    rw [same]
    exact ⟨fun _ processed => absurd repeats processed.2.2.1, fun _ => ok⟩
  rw [if_neg repeats]
  by_cases reset : s.has tcpFlagRst = true
  · rw [if_pos reset]
    have same : (tcpHandleRst env s io).conn.congestion = io.conn.congestion := by
      simp only [tcpHandleRst]
      split
      · exact congestion_tcpPutCtl ..
      split <;> rfl
    rw [same]
    exact ⟨fun _ processed => Bool.noConfusion (reset.symm.trans processed.2.2.2.1), fun _ => ok⟩
  rw [if_neg reset, congestion_tcpHandleState]
  rw [Bool.not_eq_true] at reset
  have noted : (io.modify (tcpHandleWindow env.ticks s)).conn.congestion.Ok := by
    rw [TcpIo.modify_conn, congestion_tcpHandleWindow]
    exact ok
  by_cases ack : s.has tcpFlagAck = true
  swap
  · rw [Bool.not_eq_true] at ack
    rw [tcpHandleAck_unacked env s ack]
    exact ⟨fun _ processed => Bool.noConfusion (ack.symm.trans processed.2.2.2.2), fun _ => noted⟩
  -- Neither the window's size nor what is in flight has changed yet.
  obtain ⟨_, _, _, _, _, handled⟩ := tcpHandleWindow_fields env.ticks io.conn s
  rw [ok_tcpHandleAck env noted s ack, TcpIo.modify_conn, handled]
  constructor
  · intro kept _
    exact { inflates := kept.1, grows := kept.2 }
  · intro kept
    have keeps := kept ⟨used, stale, repeats, reset, ack⟩
    exact ⟨keeps.inflates, keeps.grows⟩

theorem congestion_tcpSend (data : List UInt8) :
    (tcpSend env io data).1.conn.congestion = io.conn.congestion := by
  simp only [tcpSend]
  split
  · rfl
  split
  · rfl
  split
  · rfl
  split
  · rfl
  · exact congestion_tcpXmitPending ..

theorem congestion_tcpClose : (tcpClose env io).conn.congestion = io.conn.congestion := by
  have sent : ∀ next, (tcpSendFin env next io).conn.congestion = io.conn.congestion := fun next =>
    congestion_tcpPutCtl env io tcpFlagFinack io.conn.sndNxt
  simp only [tcpClose]
  split
  · exact sent .finWait1
  split
  · exact sent .lastAck
  · rfl

theorem ok_tcpTickConn (ok : io.conn.congestion.Ok) :
    (tcpTickConn env io).conn.congestion.Ok := by
  have tested : (tcpTestTick env io).conn.congestion = io.conn.congestion := by
    simp only [tcpTestTick]
    split
    swap
    · rfl
    split
    · obtain ⟨after, kept, same⟩ := tcpTestSend_keeps
        (fun next : TcpIo => next.conn.congestion = io.conn.congestion)
        (fun next data earlier => (@congestion_tcpSend env next data).trans earlier) rfl
      rw [same]
      exact kept
    split
    · exact congestion_tcpClose env
    · rfl
  have probed : (tcpPersistTick env (tcpTestTick env io)).conn.congestion = io.conn.congestion := by
    rw [← tested]
    simp only [tcpPersistTick]
    split
    · rfl
    split
    · rfl
    · exact congestion_tcpPutPkt ..
  simp only [tcpTickConn]
  split
  · exact ok
  split
  · split <;> exact ok
  generalize tcpPersistTick env (tcpTestTick env io) = next at probed
  rw [← probed] at ok
  have put : ∀ flags seq, ((tcpPutCtl env next flags seq).modify
      (tcpRtoRetry env.ticks)).conn.congestion.Ok := by
    intro flags seq
    have same := congestion_tcpPutCtl env next flags seq
    rw [← same] at ok
    exact ok
  simp only [tcpRtoTick]
  split
  · exact ok
  generalize (if next.conn.state = .synReceived then tcpRtoRetrySynrcvd else tcpRtoRetryData) = r2
  split
  · exact ok
  split
  · exact put _ _
  split
  · exact put _ _
  split
  · -- A timeout shrinks the window to one segment.
    simp only [tcpRtoData]
    generalize (if next.conn.inFlight.toNat > next.conn.snd.sndUsed then next.conn.snd.sndUsed
      else next.conn.inFlight.toNat) = len
    have same := congestion_tcpPutPkt env (next.modify (noteTimeout len))
      (tcpFlagAck ||| tcpFlagPsh) next.conn.sndUna next.conn.rcvNxt (next.conn.snd.sndb.read 0 len)
    have shrunk : (next.modify (noteTimeout len)).conn.congestion.Ok :=
      ⟨(by decide : tcpMss ≤ (lenWord tcpMss).toNat), (@loss_threshold (tcpTxClearMarks next.conn) (lenWord len)).1⟩
    rw [← same] at shrunk
    exact shrunk
  · exact ok

theorem windowOk_tcpStep (input : TcpEnv × TcpOp) (ok : WindowOk io.conn) :
    WindowOk (tcpStep input io).conn ↔ KeepsWindow input io := by
  rw [windowOk_iff] at ok ⊢
  obtain ⟨env, op⟩ := input
  have other : (∀ s, op ≠ .segment s) → KeepsWindow (env, op) io := by
    intro others s same
    exact absurd same (others s)
  cases op with
  | send data =>
    show (tcpSend env io data).1.conn.congestion.Ok ↔ _
    rw [congestion_tcpSend]
    exact ⟨fun _ => other (fun _ same => by cases same), fun _ => ok⟩
  | recv maxLen =>
    have same : (tcpRecv env io maxLen).1.conn.congestion = io.conn.congestion := by
      rcases tcpRecv_conn env io maxLen with unread | ⟨n, window, read⟩
      · rw [unread]
      · rw [read]
        rfl
    show (tcpRecv env io maxLen).1.conn.congestion.Ok ↔ _
    rw [same]
    exact ⟨fun _ => other (fun _ same => by cases same), fun _ => ok⟩
  | segment s =>
    show (tcpSegment env s io).conn.congestion.Ok ↔ _
    rw [ok_tcpSegment env ok]
    constructor
    · intro kept s' same processed
      cases same
      exact kept processed
    · intro kept
      exact kept s rfl
  | tick =>
    exact ⟨fun _ => other (fun _ same => by cases same), fun _ => ok_tcpTickConn env ok⟩
  | close =>
    show (tcpClose env io).conn.congestion.Ok ↔ _
    rw [congestion_tcpClose]
    exact ⟨fun _ => other (fun _ same => by cases same), fun _ => ok⟩

end Steps

theorem windowOk_tcpCcInit (c : TcpConn) : WindowOk (tcpCcInit c) :=
  windowOk_iff.mpr ⟨(by decide : tcpMss ≤ (lenWord tcpMss).toNat),
    (by decide : 2 * tcpMss ≤ (lenWord tcpBufSize).toNat)⟩

/--
The congestion window holds a segment in every state of a run exactly if nothing that is ever
added to it wraps around.

There is no upper bound on the window, and every duplicate acknowledgement in fast recovery adds
a segment to it.
-/
theorem congestion_window_iff (io : TcpIo) (inputs : List (TcpEnv × TcpOp)) :
    (∀ count, WindowOk (runInputs tcpStep (inputs.take count) (io.modify tcpCcInit)).conn) ↔
      AllAllowed tcpStep KeepsWindow inputs (io.modify tcpCcInit) :=
  @allAllowed_iff _ _ _ _ (fun io : TcpIo => WindowOk io.conn)
    (fun input _ ok => windowOk_tcpStep input ok) inputs _ (windowOk_tcpCcInit io.conn)

section Collapse

structure Recovering (una : Word) (window : Half) (dupacks cwnd : Nat) (c : TcpConn) : Prop where
  used : c.used = true
  established : c.state = .established
  una : c.sndUna = una
  flight : c.inFlight ≠ 0
  unsent : c.snd.sndUsed ≤ c.inFlight.toNat
  peer : c.peerWin = window
  recovering : c.fastRecovery = true
  dupacks : c.dupacks = lenWord dupacks
  cwnd : c.cwnd = lenWord cwnd

def bareAck (una : Word) (window : Half) : TcpIn := plainIn tcpFlagAck 0 una window

variable {una : Word} {window : Half} {dupacks cwnd : Nat} {io : TcpIo}

section Recovering

variable (env : TcpEnv) (held : Recovering una window dupacks cwnd io.conn) (many : 3 ≤ dupacks)
include env held many

theorem tcpStep_bareAck (few : dupacks + 1 < 2 ^ 32) :
    tcpStep (env, .segment (bareAck una window)) io =
      io.modify fun c => inflateCwnd (countDupAck
        (tcpHandleWindow env.ticks (bareAck una window) c)) := by
  let noted := io.modify (tcpHandleWindow env.ticks (bareAck una window))
  have view := sendView_tcpHandleWindow io.conn env.ticks (bareAck una window)
  have congestion := congestion_tcpHandleWindow io.conn env.ticks (bareAck una window)
  have at_ : noted.conn.sndUna = una := (congrArg SendView.sndUna view).trans held.una
  have flight : noted.conn.inFlight = io.conn.inFlight := TcpConn.inFlight_eq view
  have peer : noted.conn.peerWin = window := peerWin_tcpHandleWindow ..
  have silent : noted.conn.sackN = 0 := rfl
  have counted : noted.conn.dupacks + 1 = lenWord (dupacks + 1) := by
    have same : noted.conn.dupacks = lenWord dupacks :=
      (congrArg Congestion.dupacks congestion).trans held.dupacks
    rw [same, lenWord, lenWord, BitVec.ofNat_add]
    rfl
  have third : noted.conn.dupacks + 1 ≠ 3 := by
    rw [counted]
    intro three
    have value := congrArg BitVec.toNat three
    rw [lenWord, BitVec.toNat_ofNat, Nat.mod_eq_of_lt few] at value
    have : (3 : Word).toNat = 3 := rfl
    omega
  have further : noted.conn.fastRecovery = true ∧ noted.conn.dupacks + 1 > 3 := by
    refine ⟨(congrArg Congestion.fastRecovery congestion).trans held.recovering, ?_⟩
    rw [counted]
    show (3 : Word).toNat < (lenWord (dupacks + 1)).toNat
    rw [lenWord, BitVec.toNat_ofNat, Nat.mod_eq_of_lt few]
    show 3 < dupacks + 1
    omega
  -- The acknowledgement repeats the last one, and there is nothing to retransmit or to send.
  let inflated := noted.modify fun c => inflateCwnd (countDupAck c)
  have same : inflated.conn.sendView = io.conn.sendView := by
    rw [← view, TcpIo.modify_conn, sendView_inflateCwnd, sendView_countDupAck]
    rfl
  have unsent : inflated.conn.snd.sndUsed ≤ inflated.conn.inFlight.toNat := by
    rw [TcpConn.snd_eq same, TcpConn.inFlight_eq same]
    exact held.unsent
  have acked : tcpHandleAck env (bareAck una window) io.conn.peerWin noted = inflated := by
    have flagged : (bareAck una window).has tcpFlagAck = true :=
      (by decide : Flags.has tcpFlagAck tcpFlagAck = true)
    have duplicates : (bareAck una window).ack = noted.conn.sndUna ∧ noted.conn.inFlight ≠ 0 ∧
        noted.conn.peerWin ≤ io.conn.peerWin := by
      rw [at_, flight, peer, held.peer]
      exact ⟨rfl, held.flight, BitVec.le_refl _⟩
    simp only [tcpHandleAck, flagged, silent, ne_eq, not_true_eq_false, if_false, Bool.not_true,
      Bool.false_eq_true]
    rw [if_pos duplicates]
    have tried : sackRetransmit env (noted.modify countDupAck) = (noted.modify countDupAck, false) :=
      if_neg (not_not_intro silent)
    simp only [tcpHandleDupAck, tried]
    have third : ¬(noted.modify countDupAck).conn.dupacks = 3 := third
    have further : (noted.modify countDupAck).conn.fastRecovery = true ∧
      (noted.modify countDupAck).conn.dupacks > 3 := further
    rw [if_neg third, if_pos further]
    exact tcpXmitPending_unsent unsent
  have opened : inflated.conn.state = .established :=
    (congrArg SendView.state same).trans held.established
  have live : isStale (bareAck una window) io.conn = false := by
    simp [isStale, held.established]
  have waits : ¬(io.conn.state = .synReceived ∧ (bareAck una window).has tcpFlagSyn = true ∧
      (bareAck una window).seq = io.conn.rcvIsn) := by
    rw [held.established]
    intro waiting
    cases waiting.1
  have keeps : ¬(bareAck una window).has tcpFlagRst = true :=
    (by decide : ¬Flags.has tcpFlagAck tcpFlagRst = true)
  have goesOn : (bareAck una window).has tcpFlagFin = false :=
    (by decide : Flags.has tcpFlagAck tcpFlagFin = false)
  show tcpSegment env (bareAck una window) io = inflated
  rw [tcpSegment, held.used, live]
  show tcpHandleConn env (bareAck una window) io = inflated
  rw [tcpHandleConn, if_neg waits, if_neg keeps]
  show tcpHandleState env (bareAck una window)
    (tcpHandleAck env (bareAck una window) io.conn.peerWin noted) = inflated
  rw [acked, tcpHandleState, opened]
  show tcpHandleOpen env (bareAck una window) inflated = inflated
  -- There is neither data nor a close.
  have nothing : tcpHandleData env (bareAck una window) inflated = inflated := rfl
  have finished : tcpFinishClose env.ticks (bareAck una window) inflated.conn = inflated.conn := by
    simp only [tcpFinishClose, opened, reduceCtorEq, false_and, if_false]
  simp only [tcpHandleOpen, nothing, goesOn, Bool.false_eq_true, false_and, if_false]
  rw [TcpIo.modify, finished]

theorem Recovering.step (few : dupacks + 1 < 2 ^ 32) :
    Recovering una window (dupacks + 1) (cwnd + tcpMss)
      (tcpStep (env, .segment (bareAck una window)) io).conn := by
  rw [tcpStep_bareAck env held many few]
  let noted := tcpHandleWindow env.ticks (bareAck una window) io.conn
  show Recovering una window (dupacks + 1) (cwnd + tcpMss) (inflateCwnd (countDupAck noted))
  have view : (inflateCwnd (countDupAck noted)).sendView = io.conn.sendView := by
    rw [sendView_inflateCwnd, sendView_countDupAck, sendView_tcpHandleWindow]
  have side := eraseSender_tcpHandleWindow io.conn env.ticks (bareAck una window)
  have congestion : noted.congestion = io.conn.congestion := congestion_tcpHandleWindow ..
  have inflated : (inflateCwnd (countDupAck noted)).congestion =
      { noted.congestion with
        cwnd := noted.cwnd + lenWord tcpMss, dupacks := noted.dupacks + 1 } := rfl
  have kept : (inflateCwnd (countDupAck noted)).used = true := by
    have reads : ∀ e : TcpConn, e.used = e.eraseSender.used := fun _ => rfl
    show noted.used = true
    rw [reads, side, ← reads]
    exact held.used
  have set : ∀ cwnd (d : TcpConn), (setCwnd cwnd d).peerWin = d.peerWin := fun _ _ => rfl
  have counted : noted.dupacks = lenWord dupacks :=
    (congrArg Congestion.dupacks congestion).trans held.dupacks
  have before : noted.cwnd = lenWord cwnd :=
    (congrArg Congestion.cwnd congestion).trans held.cwnd
  refine
    { used := kept
      established := (congrArg SendView.state view).trans held.established
      una := (congrArg SendView.sndUna view).trans held.una
      flight := fun none => held.flight ((TcpConn.inFlight_eq view).symm.trans none)
      unsent := ?_
      peer := (set _ (countDupAck noted)).trans (peerWin_tcpHandleWindow ..)
      recovering := (congrArg Congestion.fastRecovery congestion).trans held.recovering
      dupacks := (congrArg Congestion.dupacks inflated).trans ?_
      cwnd := (congrArg Congestion.cwnd inflated).trans ?_ }
  · rw [TcpConn.snd_eq view, TcpConn.inFlight_eq view]
    exact held.unsent
  · show noted.dupacks + 1 = lenWord (dupacks + 1)
    rw [counted, lenWord, lenWord, BitVec.ofNat_add]
    rfl
  · show noted.cwnd + lenWord tcpMss = lenWord (cwnd + tcpMss)
    rw [before, lenWord, lenWord, lenWord, BitVec.ofNat_add]

theorem Recovering.run {count : Nat} (few : dupacks + count < 2 ^ 32) :
    Recovering una window (dupacks + count) (cwnd + count * tcpMss) (runInputs tcpStep
      (List.replicate count (env, .segment (bareAck una window))) io).conn := by
  refine runInputs_replicate (fun k (io : TcpIo) =>
    Recovering una window (dupacks + k) (cwnd + k * tcpMss) io.conn) _ count ?_ ?_
  · intro k io below held
    have next := held.step env (by omega) (by omega)
    rw [Nat.succ_mul, ← Nat.add_assoc, ← Nat.add_assoc]
    exact next
  · rw [Nat.add_zero, Nat.zero_mul, Nat.add_zero]
    exact held

end Recovering

end Collapse

/--
Nearly three million duplicate acknowledgements bring the window down below one segment.

One byte is sent and stays unacknowledged, and every acknowledgement after the third one adds a
segment to the window until it wraps around.
-/
theorem duplicate_acks_collapse_window :
    let env : TcpEnv := { ticks := 5, outcome := fun _ => .sent }
    let opening : List (TcpEnv × TcpOp) :=
      [(env, .segment (plainIn tcpFlagAck 101 8 500)), (env, .send [65])] ++
        List.replicate 3 (env, .segment (bareAck 8 500))
    ∃ count, count = 2941754 ∧
      let io := runInputs tcpStep
        (opening ++ List.replicate count (env, .segment (bareAck 8 500)))
        (tcpSynAccept env (plainIn tcpFlagSyn 100 0 500) 1 7 zeroConn)
      io.conn.state = .established ∧ io.conn.peerWin = 500 ∧ io.conn.cwnd = 844 := by
  intro env opening
  have start : Recovering 8 500 3 7300 (runInputs tcpStep opening
      (tcpSynAccept env (plainIn tcpFlagSyn 100 0 500) 1 7 zeroConn)).conn :=
    { used := by decide, established := by decide, una := by decide
      flight := by decide, unsent := by decide, peer := by decide
      recovering := by decide, dupacks := by decide, cwnd := by decide }
  -- The number stays a variable, so that nobody tries to run that many segments.
  obtain ⟨count, number⟩ : ∃ count, count = 2941754 := ⟨_, rfl⟩
  have last := @Recovering.run _ _ _ _ _ env start (Nat.le_refl 3) count (by omega)
  rw [← runInputs_append] at last
  have value : lenWord (7300 + count * tcpMss) = 844 := by
    rw [number]
    decide
  exact ⟨count, number, last.established, last.peer, last.cwnd.trans value⟩

end CatOs.Tcp
