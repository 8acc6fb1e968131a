import CatOs.Net.Tcp.ScoreboardLaws
import CatOs.Net.Tcp.SendView

/-! The send buffer holds the unacknowledged end of the stream, and segments carry parts of it. -/

namespace CatOs.Tcp

structure Carries (base : Word) (stream : List UInt8) (p : TcpOut) : Prop where
  payload : p.data ≠ [] → ∃ position, p.seq = serial base position ∧
    position + p.data.length ≤ stream.length ∧
    p.data = (stream.drop position).take p.data.length
  close : p.flags.has tcpFlagFin = true → p.seq = serial base stream.length

/--
The send side, after some bytes of a stream were acknowledged and some were sent.

A close takes the number after the last byte, and is sent only when every byte was.
-/
structure Sending (base : Word) (stream : List UInt8) (acked sent : Nat) (closed : Bool)
    (v : SendView) : Prop where
  una : v.sndUna = serial base acked
  nxt : v.sndNxt = serial base (sent + closed.toNat)
  order : acked ≤ sent + closed.toNat
  within : sent ≤ stream.length
  complete : closed = true → sent = stream.length
  bytes : v.snd.sndb.read 0 v.snd.sndUsed = stream.drop acked
  scoreboard : TxTiled base acked (max acked sent) v.tx v.txN

section View

variable {base : Word} {stream : List UInt8} {acked sent : Nat} {closed : Bool} {v : SendView}

section Sending

variable (inv : Sending base stream acked sent closed v)
include inv

theorem Sending.used_eq :
    v.snd.sndUsed = stream.length - acked := by
  simpa using congrArg List.length inv.bytes

theorem Sending.sent_le :
    sent ≤ acked + tcpBufSize := by
  have used := inv.used_eq
  have bounded := v.snd.sndUsed_le
  have within := inv.within
  omega

theorem Sending.inFlight_eq :
    (v.sndNxt - v.sndUna).toNat = sent + closed.toNat - acked := by
  have bounded := inv.sent_le
  have one := closed.toNat_le
  simp only [tcpBufSize] at bounded
  rw [inv.nxt, inv.una]
  exact serial_sub_toNat base inv.order (by omega)

theorem Sending.slice {off len : Nat}
    (fits : off + len ≤ v.snd.sndUsed) :
    v.snd.sndb.read off len = (stream.drop (acked + off)).take len := by
  rw [← List.drop_drop, ← inv.bytes, Buffer.drop_read _ _ (by omega), Nat.zero_add,
    Buffer.take_read _ _ (by omega)]

theorem Sending.marks {tx : Buffer TxSeg}
    (same : ∀ i, (tx i).span = (v.tx i).span) :
    Sending base stream acked sent closed { v with tx := tx } :=
  { una := inv.una, nxt := inv.nxt, order := inv.order, within := inv.within,
    complete := inv.complete, bytes := inv.bytes, scoreboard := inv.scoreboard.congr same }

theorem Sending.setState (state : TcpState) :
    Sending base stream acked sent closed { v with state := state } :=
  { una := inv.una, nxt := inv.nxt, order := inv.order, within := inv.within,
    complete := inv.complete, bytes := inv.bytes, scoreboard := inv.scoreboard }

end Sending

end View

theorem tcpTxAdd_congr {c d : TcpConn} (tx : c.tx = d.tx) (txN : c.txN = d.txN) (seq : Word)
    (len : Nat) : (tcpTxAdd c seq len).tx = (tcpTxAdd d seq len).tx ∧
      (tcpTxAdd c seq len).txN = (tcpTxAdd d seq len).txN := by
  simp only [tcpTxAdd, tx, txN]
  split
  · exact ⟨tx, txN⟩
  split
  · split
    · exact ⟨rfl, rfl⟩
    · exact ⟨tx, txN⟩
  · exact ⟨rfl, rfl⟩

section Fields

variable (ticks : Word) (c : TcpConn)

theorem tcpTxAdd_fields (seq : Word) (len : Nat) : tcpTxAdd c seq len =
    { c with tx := (tcpTxAdd c seq len).tx, txN := (tcpTxAdd c seq len).txN } := by
  simp only [tcpTxAdd]
  split
  · rfl
  split
  · split <;> rfl
  · rfl

theorem startRtt_fields (n : Nat) : ∃ stamp seq pending again, startRtt ticks n c =
    { c with rttStamp := stamp, rttSeq := seq, rttPending := pending, rttRetransmitted := again } := by
  unfold startRtt
  split <;> exact ⟨_, _, _, _, rfl⟩

theorem noteSent_fields (n : Nat) : ∃ deadline, noteSent ticks n c =
    { c with
      rttStamp := (startRtt ticks n c).rttStamp
      rttSeq := (startRtt ticks n c).rttSeq
      rttPending := (startRtt ticks n c).rttPending
      rttRetransmitted := (startRtt ticks n c).rttRetransmitted
      sndNxt := c.sndNxt + lenWord n
      tx := (tcpTxAdd c c.sndNxt n).tx
      txN := (tcpTxAdd c c.sndNxt n).txN
      rtoDeadline := deadline
      persistDeadline := 0
      persistBackoff := noBackoff } := by
  obtain ⟨stamp, seq, pending, again, started⟩ := startRtt_fields ticks c n
  obtain ⟨tx, txN⟩ := tcpTxAdd_congr (c := advanceNxt n (startRtt ticks n c)) (d := c)
    (by rw [started]; rfl) (by rw [started]; rfl) c.sndNxt n
  have back : (advanceNxt n (startRtt ticks n c)).sndNxt - lenWord n = c.sndNxt := by
    rw [started]
    exact add_sub_cancel_right ..
  have noted : noteSent ticks n c = tcpPersistClear (tcpRtoRearm ticks
      { advanceNxt n (startRtt ticks n c) with
        tx := (tcpTxAdd c c.sndNxt n).tx, txN := (tcpTxAdd c c.sndNxt n).txN }) := by
    rw [noteSent, back, tcpTxAdd_fields, tx, txN]
  rw [started] at noted ⊢
  exact ⟨_, noted⟩

theorem marked_fields (io : TcpIo) : ∃ tx, (∀ i, (tx i).span = (io.conn.tx i).span) ∧
    (if io.conn.sackN ≠ 0 then io.modify tcpTxSack else io) =
      io.modify fun c => { c with tx := tx } := by
  split
  · exact ⟨_, tcpTxSack_span io.conn, rfl⟩
  · exact ⟨_, fun _ => rfl, rfl⟩

theorem tcpAckRtt_fields (ack : Word) : ∃ srtt rttvar rto, tcpAckRtt ticks ack c =
    { c with
      rttPending := if c.rttPending ∧ !tcpSeqBefore ack c.rttSeq then false else c.rttPending
      srttTicks := srtt
      rttvarTicks := rttvar
      rtoTicks := rto } := by
  unfold tcpAckRtt
  split
  · split <;> exact ⟨_, _, _, rfl⟩
  · exact ⟨_, _, _, rfl⟩

theorem tcpAckCwnd_fields (acked : Nat) : ∃ cwnd, tcpAckCwnd acked c = { c with cwnd := cwnd } := by
  unfold tcpAckCwnd
  split
  · exact ⟨_, rfl⟩
  split <;> exact ⟨_, rfl⟩

theorem tcpAckRecovery_fields (ack : Word) : ∃ cwnd recovering, tcpAckRecovery ack c =
    { c with cwnd := cwnd, fastRecovery := recovering } := by
  unfold tcpAckRecovery
  split <;> exact ⟨_, _, rfl⟩

theorem tcpAckAdvance_fields (ack : Word) : ∃ srtt rttvar rto cwnd recovering,
    tcpAckAdvance ticks ack c = { c with
      rttPending := if c.rttPending ∧ !tcpSeqBefore ack c.rttSeq then false else c.rttPending
      srttTicks := srtt, rttvarTicks := rttvar, rtoTicks := rto
      sndUna := ack
      snd := c.snd.ack (min (ack - c.sndUna).toNat c.snd.sndUsed)
      tx := (tcpTxAck c ack).tx
      txN := (tcpTxAck c ack).txN
      cwnd := cwnd, fastRecovery := recovering, dupacks := 0
      rtoBackoff := noBackoff, rtoAttempts := 0 } := by
  obtain ⟨srtt, rttvar, rto, measured⟩ := tcpAckRtt_fields ticks c ack
  generalize acked_eq : min (ack - c.sndUna).toNat c.snd.sndUsed = acked
  have advanced : tcpAckAdvance ticks ack c = { tcpAckRecovery ack (tcpAckCwnd acked (tcpTxAck
      { tcpAckRtt ticks ack c with
        sndUna := ack, snd := (tcpAckRtt ticks ack c).snd.ack acked } ack)) with
      dupacks := 0, rtoBackoff := noBackoff, rtoAttempts := 0 } := by
    rw [tcpAckAdvance, acked_eq]
  obtain ⟨_, opened⟩ := tcpAckCwnd_fields (tcpTxAck { tcpAckRtt ticks ack c with
    sndUna := ack, snd := (tcpAckRtt ticks ack c).snd.ack acked } ack) acked
  rw [opened] at advanced
  obtain ⟨_, _, left⟩ := tcpAckRecovery_fields { tcpTxAck { tcpAckRtt ticks ack c with
    sndUna := ack, snd := (tcpAckRtt ticks ack c).snd.ack acked } ack with cwnd := _ } ack
  rw [left, measured] at advanced
  exact ⟨_, _, _, _, _, advanced⟩

end Fields

theorem sendView_noteSent (ticks : Word) (n : Nat) (c : TcpConn) :
    (noteSent ticks n c).sendView = { c.sendView with
      sndNxt := c.sndNxt + lenWord n
      tx := (tcpTxAdd c c.sndNxt n).tx
      txN := (tcpTxAdd c c.sndNxt n).txN } := by
  obtain ⟨_, noted⟩ := noteSent_fields ticks c n
  rw [noted]
  rfl

theorem sendView_tcpAckAdvance (ticks ack : Word) (c : TcpConn) :
    (tcpAckAdvance ticks ack c).sendView = { c.sendView with
      sndUna := ack
      snd := c.snd.ack (min (ack - c.sndUna).toNat c.snd.sndUsed)
      tx := (tcpTxAck c ack).tx
      txN := (tcpTxAck c ack).txN } := by
  obtain ⟨_, _, _, _, _, advanced⟩ := tcpAckAdvance_fields ticks c ack
  rw [advanced]
  rfl

theorem EntriesFit.tcpAckAdvance {limit : Nat} {c : TcpConn} (fit : EntriesFit limit c)
    (ticks ack : Word) : EntriesFit limit (tcpAckAdvance ticks ack c) := by
  have view := sendView_tcpAckAdvance ticks ack c
  have entries : (CatOs.Tcp.tcpAckAdvance ticks ack c).tx = (CatOs.Tcp.tcpTxAck c ack).tx :=
    congrArg SendView.tx view
  have count : (CatOs.Tcp.tcpAckAdvance ticks ack c).txN = (CatOs.Tcp.tcpTxAck c ack).txN :=
    congrArg SendView.txN view
  exact (fit.tcpTxAck ack).marks count fun i => by rw [entries]

section Advance

variable {base : Word} {stream : List UInt8} {acked sent : Nat} {c : TcpConn}

theorem Sending.noteSent (inv : Sending base stream acked sent false c.sendView) (ticks : Word)
    {n : Nat} (positive : 0 < n) (short : n ≤ tcpMss) (unsent : sent + n ≤ stream.length) :
    Sending base stream acked (sent + n) false (noteSent ticks n c).sendView := by
  have order : acked ≤ sent := inv.order
  have number : c.sndNxt = serial base sent := inv.nxt
  have used := inv.used_eq
  have bounded := c.sendView.snd.sndUsed_le
  have scoreboard := inv.scoreboard
  rw [Nat.max_eq_right order] at scoreboard
  rw [sendView_noteSent, number]
  refine { una := inv.una, nxt := ?_, order := ?_, within := unsent, complete := nofun,
           bytes := inv.bytes, scoreboard := ?_ }
  · exact serial_lenWord base sent n
  · show acked ≤ sent + n
    omega
  · rw [Nat.max_eq_right (by omega)]
    exact scoreboard.add positive short (by omega)

theorem Sending.ack_position {closed : Bool} (inv : Sending base stream acked sent closed c.sendView)
    {ack : Word} (after : tcpSeqAfter ack c.sndUna = true)
    (upTo : tcpSeqAfter ack c.sndNxt = false) :
    ∃ cut, ack = serial base cut ∧ acked < cut ∧ cut ≤ sent + closed.toNat := by
  have bounded := inv.sent_le
  have order := inv.order
  have one := closed.toNat_le
  simp only [tcpBufSize] at bounded
  have una : c.sndUna = serial base acked := inv.una
  have nxt : c.sndNxt = serial base (sent + closed.toNat) := inv.nxt
  -- A positive signed distance is also the unsigned one.
  simp only [tcpSeqAfter, decide_eq_true_eq] at after
  have distance := BitVec.toInt_eq_toNat_cond (ack - c.sndUna)
  have small : 2 * (ack - c.sndUna).toNat < 2 ^ 32 := by
    by_contra large
    rw [if_neg large] at distance
    have limit := (ack - c.sndUna).isLt
    omega
  rw [if_pos small] at distance
  have number : ack = serial base (acked + (ack - c.sndUna).toNat) :=
    serial_eq_of_sub base ack (by rw [una])
  refine ⟨acked + (ack - c.sndUna).toNat, number, by omega, ?_⟩
  rw [number, nxt, tcpSeqAfter_serial base (by omega) (by omega), decide_eq_false_iff_not] at upTo
  omega

theorem Sending.tcpAckAdvance {closed : Bool}
    (inv : Sending base stream acked sent closed c.sendView) (ticks : Word) {cut : Nat}
    (forward : acked < cut) (upTo : cut ≤ sent + closed.toNat) :
    Sending base stream cut sent closed (tcpAckAdvance ticks (serial base cut) c).sendView := by
  have used : c.snd.sndUsed = stream.length - acked := inv.used_eq
  have bounded := inv.sent_le
  have within := inv.within
  have one := closed.toNat_le
  have una : c.sndUna = serial base acked := inv.una
  have distance : (serial base cut - c.sndUna).toNat = cut - acked := by
    simp only [tcpBufSize] at bounded
    rw [una, serial_sub_toNat base (by omega) (by omega)]
  rw [sendView_tcpAckAdvance, distance]
  have scoreboard := inv.scoreboard.ack (by omega) (Nat.le_of_lt forward) (by omega)
  refine { una := rfl, nxt := inv.nxt, order := upTo, within := within, complete := inv.complete,
           bytes := ?_, scoreboard := ?_ }
  · -- Only the number of a close can be acknowledged beyond the bytes in the buffer.
    have bytes : c.snd.sndb.read 0 c.snd.sndUsed = stream.drop acked := inv.bytes
    have left := congrArg (List.drop (min (cut - acked) c.snd.sndUsed)) bytes
    rw [Buffer.drop_read _ _ (Nat.min_le_right _ _), Nat.zero_add, List.drop_drop] at left
    have rest : stream.drop (acked + min (cut - acked) c.snd.sndUsed) = stream.drop cut := by
      by_cases data : cut - acked ≤ c.snd.sndUsed
      · rw [Nat.min_eq_left data, Nat.add_sub_cancel' (Nat.le_of_lt forward)]
      · rw [List.drop_eq_nil_of_le (by omega), List.drop_eq_nil_of_le (by omega)]
    rw [← rest, ← left]
    show (if min (cut - acked) c.snd.sndUsed ≠ 0 then _ else _ : Buffer UInt8).read 0
      (c.snd.sndUsed - min (cut - acked) c.snd.sndUsed) = _
    split
    · exact Buffer.read_copyWithin_front ..
    · rename_i none
      rw [Decidable.not_not.mp none]
  · have same : max (max acked sent) cut = max cut sent := by omega
    rwa [same] at scoreboard

end Advance

end CatOs.Tcp
