import CatOs.Net.Tcp.SendRun

/-! Every transmission of a connection, by position in its stream, and the segment being timed. -/

namespace CatOs.Tcp

structure Stretch where
  start : Nat
  len : Nat
  deriving DecidableEq, Repr

def Stretch.covers (stretch : Stretch) (k : Nat) : Bool :=
  stretch.start ≤ k && k < stretch.start + stretch.len

def timesSent (sent : List Stretch) (k : Nat) : Nat :=
  sent.countP fun stretch => stretch.covers k

/--
A transmission ends at a position, and each of its bytes was transmitted once.

No other transmission ends there then, since it would carry the last byte again.
-/
def SentOnce (sent : List Stretch) (last : Nat) : Prop :=
  ∃ stretch ∈ sent, 0 < stretch.len ∧ stretch.start + stretch.len = last ∧
    ∀ k, stretch.covers k = true → timesSent sent k = 1

def carried (una : Word) (position : Nat) (p : TcpOut) : Option Stretch :=
  if p.data = [] then none else some ⟨position + (p.seq - una).toNat, p.data.length⟩

structure History where
  io : TcpIo
  /-- The position of the oldest unacknowledged byte in the stream. -/
  acked : Nat
  sent : List Stretch

def History.start (io : TcpIo) : History := { io := io, acked := 0, sent := [] }

def History.step (input : TcpEnv × TcpOp) (h : History) : History :=
  let next := tcpStep input h.io
  let acked := h.acked + (next.conn.sndUna - h.io.conn.sndUna).toNat
  { io := next
    acked := acked
    sent := h.sent ++
      (next.wire.drop h.io.wire.length).filterMap (carried next.conn.sndUna acked) }

def History.timed (h : History) : Nat :=
  h.acked + (h.io.conn.rttSeq - h.io.conn.sndUna).toNat

structure Timing where
  seq : Word
  pending : Bool
  /-- Something was retransmitted since it began. -/
  again : Bool

def TcpConn.timing (c : TcpConn) : Timing :=
  { seq := c.rttSeq, pending := c.rttPending, again := c.rttRetransmitted }

def SendView.flight (v : SendView) : Nat := (v.sndNxt - v.sndUna).toNat

def TcpState.unclosed : TcpState → Bool
  | .synReceived | .established | .closeWait => true
  | _ => false

structure FlightOk (v : SendView) : Prop where
  bounded : v.flight ≤ v.snd.sndUsed + if v.state.unclosed then 0 else 1
  few : v.txN ≤ tcpTxSegMax
  entries : ∀ seg ∈ v.tx.read 0 v.txN, (seg.seq - v.sndUna).toNat + seg.len ≤ v.flight

structure Reckoned (position : Nat) (sent : List Stretch) (v : SendView) (t : Timing) : Prop where
  flight : FlightOk v
  past : ∀ stretch ∈ sent, stretch.start + stretch.len ≤ position + v.flight
  timed : t.pending = true → 0 < (t.seq - v.sndUna).toNat ∧ (t.seq - v.sndUna).toNat ≤ v.flight
  once : t.pending = true → t.again = false →
    SentOnce sent (position + (t.seq - v.sndUna).toNat)

section Counting

variable {sent : List Stretch} {last : Nat} {stretch : Stretch}

theorem SentOnce.append (once : SentOnce sent last) (after : last ≤ stretch.start) :
    SentOnce (sent ++ [stretch]) last := by
  obtain ⟨first, member, some, ends, counts⟩ := once
  refine ⟨first, List.mem_append_left _ member, some, ends, ?_⟩
  intro k inside
  have missed : stretch.covers k = false := by
    simp only [Stretch.covers, Bool.and_eq_true, decide_eq_true_eq] at inside
    simp only [Stretch.covers, Bool.and_eq_false_iff, decide_eq_false_iff_not]
    omega
  rw [timesSent, List.countP_append, ← timesSent, counts k inside]
  simp [missed]

theorem SentOnce.fresh {start len : Nat}
    (past : ∀ stretch ∈ sent, stretch.start + stretch.len ≤ start) (some : 0 < len) :
    SentOnce (sent ++ [⟨start, len⟩]) (start + len) := by
  refine ⟨⟨start, len⟩, by simp, some, rfl, ?_⟩
  intro k inside
  have earlier : timesSent sent k = 0 := by
    rw [timesSent, List.countP_eq_zero]
    intro other member
    have ends := past other member
    simp only [Stretch.covers, Bool.and_eq_true, decide_eq_true_eq] at inside ⊢
    omega
  rw [timesSent, List.countP_append, ← timesSent, earlier]
  simp [inside]

end Counting

section Reckoning

variable {position : Nat} {sent : List Stretch} {v : SendView} {t : Timing}

theorem FlightOk.small (ok : FlightOk v) : v.flight ≤ tcpBufSize + 1 := by
  have bounded := ok.bounded
  have used := v.snd.sndUsed_le
  split at bounded <;> omega

theorem FlightOk.marks (ok : FlightOk v) {tx : Buffer TxSeg}
    (same : ∀ i, (tx i).span = (v.tx i).span) : FlightOk { v with tx := tx } := by
  refine { bounded := ok.bounded, few := ok.few, entries := ?_ }
  intro seg member
  obtain ⟨i, within, rfl⟩ := Buffer.mem_read.mp member
  have before := ok.entries _ (Buffer.mem_read.mpr ⟨i, within, rfl⟩)
  have spans := same (0 + i)
  have seq : (tx (0 + i)).seq = (v.tx (0 + i)).seq := congrArg (fun span => span.1) spans
  have len : (tx (0 + i)).len = (v.tx (0 + i)).len := congrArg (fun span => span.2.1) spans
  show ((tx (0 + i)).seq - v.sndUna).toNat + (tx (0 + i)).len ≤ v.flight
  rw [seq, len]
  exact before

section Reckoned

variable (ok : Reckoned position sent v t)
include ok

theorem Reckoned.marks {tx : Buffer TxSeg}
    (same : ∀ i, (tx i).span = (v.tx i).span) : Reckoned position sent { v with tx := tx } t :=
  { flight := ok.flight.marks same, past := ok.past, timed := ok.timed, once := ok.once }

theorem Reckoned.setState {state : TcpState}
    (opened : state.unclosed = true → v.state.unclosed = true) :
    Reckoned position sent { v with state := state } t := by
  refine { flight := ?_, past := ok.past, timed := ok.timed, once := ok.once }
  refine { bounded := ?_, few := ok.flight.few, entries := ok.flight.entries }
  have bounded := ok.flight.bounded
  show v.flight ≤ v.snd.sndUsed + if state.unclosed then 0 else 1
  cases still : state.unclosed with
  | true =>
    rw [opened still] at bounded
    exact bounded
  | false =>
    simp only [Bool.false_eq_true, if_false]
    split at bounded <;> omega

theorem Reckoned.queue {snd : TcpSnd}
    (more : v.snd.sndUsed ≤ snd.sndUsed) : Reckoned position sent { v with snd := snd } t := by
  refine { flight := ?_, past := ok.past, timed := ok.timed, once := ok.once }
  refine { bounded := ?_, few := ok.flight.few, entries := ok.flight.entries }
  have bounded := ok.flight.bounded
  show v.flight ≤ snd.sndUsed + if v.state.unclosed then 0 else 1
  omega

theorem Reckoned.again :
    Reckoned position sent v { t with again := true } :=
  { flight := ok.flight, past := ok.past, timed := ok.timed
    once := fun _ plain => Bool.noConfusion plain }

theorem Reckoned.resent {stretch : Stretch}
    (within : stretch.start + stretch.len ≤ position + v.flight) :
    Reckoned position (sent ++ [stretch]) v { t with again := true } := by
  refine { flight := ok.flight, past := ?_, timed := ok.timed
           once := fun _ plain => Bool.noConfusion plain }
  intro other member
  rcases List.mem_append.mp member with before | here
  · exact ok.past other before
  · rw [List.mem_singleton.mp here]
    exact within

theorem Reckoned.close (opened : v.state.unclosed = true)
    {state : TcpState} (closing : state.unclosed = false) :
    Reckoned position sent { v with state := state, sndNxt := v.sndNxt + 1 } t := by
  have bounded := ok.flight.bounded
  rw [opened] at bounded
  have small := ok.flight.small
  have used := v.snd.sndUsed_le
  have flight : ({ v with state := state, sndNxt := v.sndNxt + 1 } : SendView).flight =
      v.flight + 1 := by
    show (v.sndNxt + 1 - v.sndUna).toNat = (v.sndNxt - v.sndUna).toNat + 1
    simp only [SendView.flight, tcpBufSize] at small
    rw [add_sub_right_comm, BitVec.toNat_add]
    exact Nat.mod_eq_of_lt (by show _ + 1 < _; omega)
  refine { flight := { bounded := ?_, few := ok.flight.few, entries := ?_ }
           past := ?_, timed := ?_, once := ok.once }
  · rw [flight]
    show v.flight + 1 ≤ v.snd.sndUsed + if state.unclosed then 0 else 1
    rw [closing]
    simp only [if_true, Bool.false_eq_true, if_false] at bounded ⊢
    omega
  · intro seg member
    have before := ok.flight.entries seg member
    rw [flight]
    show (seg.seq - v.sndUna).toNat + seg.len ≤ v.flight + 1
    omega
  · intro stretch member
    have before := ok.past stretch member
    omega
  · intro pending
    obtain ⟨positive, within⟩ := ok.timed pending
    rw [flight]
    exact ⟨positive, Nat.le_succ_of_le within⟩

end Reckoned

theorem tcpTxAdd_entries {c : TcpConn} {seq : Word} {len bound : Nat} (few : c.txN ≤ tcpTxSegMax)
    {una : Word} (earlier : ∀ seg ∈ c.tx.read 0 c.txN, (seg.seq - una).toNat + seg.len ≤ bound)
    (here : (seq - una).toNat ≤ bound) :
    (tcpTxAdd c seq len).txN ≤ tcpTxSegMax ∧
      ∀ seg ∈ (tcpTxAdd c seq len).tx.read 0 (tcpTxAdd c seq len).txN,
        (seg.seq - una).toNat + seg.len ≤ bound + len := by
  have grown : ∀ seg ∈ c.tx.read 0 c.txN, (seg.seq - una).toNat + seg.len ≤ bound + len :=
    fun seg member => Nat.le_trans (earlier seg member) (Nat.le_add_right _ _)
  simp only [tcpTxAdd]
  split
  · exact ⟨few, grown⟩
  split
  · rename_i full
    split
    · -- The last entry of a full scoreboard grows by as much as the flight.
      rename_i joined
      refine ⟨few, ?_⟩
      intro seg member
      obtain ⟨i, within, rfl⟩ := Buffer.mem_read.mp member
      dsimp only
      by_cases last : 0 + i = tcpTxSegMax - 1
      · have before := earlier _ (Buffer.mem_read.mpr ⟨i, within, rfl⟩)
        rw [last] at before ⊢
        rw [Function.update_self]
        have narrow := Nat.mod_le ((c.tx (tcpTxSegMax - 1)).len + len) (2 ^ 16)
        show ((c.tx (tcpTxSegMax - 1)).seq - una).toNat +
          ((c.tx (tcpTxSegMax - 1)).len + len) % 2 ^ 16 ≤ bound + len
        omega
      · rw [Function.update_of_ne last]
        exact grown _ (Buffer.mem_read.mpr ⟨i, within, rfl⟩)
    · exact ⟨few, grown⟩
  · rename_i space
    refine ⟨by show c.txN + 1 ≤ tcpTxSegMax; omega, ?_⟩
    intro seg member
    rw [Buffer.read_update_snoc] at member
    rcases List.mem_append.mp member with before | new
    · exact grown seg before
    · rw [List.mem_singleton.mp new]
      have narrow := Nat.mod_le len (2 ^ 16)
      show (seq - una).toNat + len % 2 ^ 16 ≤ bound + len
      omega

/-- New data is sent for the first time, and times the round trip if nothing else does. -/
theorem Reckoned.sendNew {c : TcpConn} (ok : Reckoned position sent c.sendView c.timing)
    (ticks : Word) {n : Nat} (some : 0 < n) (fits : c.inFlight.toNat + n ≤ c.snd.sndUsed) :
    Reckoned position (sent ++ [⟨position + c.inFlight.toNat, n⟩])
      (noteSent ticks n c).sendView (noteSent ticks n c).timing := by
  have used := c.snd.sndUsed_le
  simp only [tcpBufSize] at used
  have view := sendView_noteSent ticks n c
  have ahead : ∀ k, k ≤ c.inFlight.toNat + n → (c.sndUna + lenWord k - c.sndUna).toNat = k := by
    intro k below
    rw [add_sub_cancel_left, lenWord, BitVec.toNat_ofNat]
    exact Nat.mod_eq_of_lt (by omega)
  have next : c.sndNxt = c.sndUna + lenWord c.inFlight.toNat := by
    rw [TcpConn.inFlight, lenWord, BitVec.ofNat_toNat, BitVec.setWidth_eq, add_sub_cancel]
  have beyond : c.sndNxt + lenWord n = c.sndUna + lenWord (c.inFlight.toNat + n) := by
    rw [next, add_assoc]
    congr 1
    rw [lenWord, lenWord, lenWord, BitVec.ofNat_add]
  have flight : (noteSent ticks n c).sendView.flight = c.inFlight.toNat + n := by
    rw [view]
    show (c.sndNxt + lenWord n - c.sndUna).toNat = _
    rw [beyond, ahead _ (Nat.le_refl _)]
  have una : (noteSent ticks n c).sendView.sndUna = c.sndUna := by rw [view]; rfl
  have before : c.sendView.flight = c.inFlight.toNat := rfl
  -- The measurement is the one under way, or it starts here.
  have timing : (noteSent ticks n c).timing = if c.rttPending then c.timing
      else { seq := c.sndNxt + lenWord n, pending := true, again := false } := by
    obtain ⟨_, noted⟩ := noteSent_fields ticks c n
    rw [noted]
    simp only [TcpConn.timing, startRtt]
    split <;> rfl
  have entries := @tcpTxAdd_entries c c.sndNxt n c.inFlight.toNat ok.flight.few c.sndUna
    ok.flight.entries (by rw [next, ahead _ (by omega)])
  refine { flight := { bounded := ?_, few := ?_, entries := ?_ }
           past := ?_, timed := ?_, once := ?_ }
  · rw [flight, view]
    show _ ≤ c.snd.sndUsed + _
    omega
  · rw [view]
    exact entries.1
  · rw [flight, una, view]
    exact entries.2
  · intro stretch member
    rw [flight]
    rcases List.mem_append.mp member with earlier | new
    · have ends := ok.past stretch earlier
      omega
    · rw [List.mem_singleton.mp new]
      show position + c.inFlight.toNat + n ≤ _
      omega
  · rw [timing, flight, una]
    cases running : c.rttPending with
    | true =>
      intro _
      obtain ⟨positive, within⟩ := ok.timed running
      exact ⟨positive, by rw [before] at within; exact Nat.le_add_right_of_le within⟩
    | false =>
      intro _
      simp only [Bool.false_eq_true, if_false]
      rw [beyond, ahead _ (Nat.le_refl _)]
      exact ⟨by omega, Nat.le_refl _⟩
  · rw [timing, una]
    cases running : c.rttPending with
    | true =>
      intro _ plain
      -- What is timed lies before the new data.
      obtain ⟨-, within⟩ := ok.timed running
      have once := ok.once running plain
      exact once.append (by rw [before] at within; show position + _ ≤ position + _; omega)
    | false =>
      intro _ _
      simp only [Bool.false_eq_true, if_false]
      rw [beyond, ahead _ (Nat.le_refl _), ← Nat.add_assoc]
      exact SentOnce.fresh (fun stretch member => ok.past stretch member) some

theorem timing_tcpAckAdvance (ticks ack : Word) (c : TcpConn) :
    (tcpAckAdvance ticks ack c).timing =
      if c.rttPending ∧ !tcpSeqBefore ack c.rttSeq then { c.timing with pending := false }
      else c.timing := by
  obtain ⟨_, _, _, _, _, advanced⟩ := tcpAckAdvance_fields ticks c ack
  rw [advanced]
  simp only [TcpConn.timing]
  split <;> rfl

theorem tcpTxAck_within {c : TcpConn} {a flight : Nat} (few : c.txN ≤ tcpTxSegMax)
    (small : flight ≤ tcpBufSize + 1) (below : a ≤ flight)
    (earlier : ∀ seg ∈ c.tx.read 0 c.txN, (seg.seq - c.sndUna).toNat + seg.len ≤ flight) :
    ∀ seg ∈ (tcpTxAck c (serial c.sndUna a)).tx.read 0 (tcpTxAck c (serial c.sndUna a)).txN,
      (seg.seq - serial c.sndUna a).toNat + seg.len ≤ flight - a := by
  simp only [tcpBufSize] at small
  rw [(tcpTxAck_entries c (serial c.sndUna a) few).2]
  intro rest member
  obtain ⟨seg, before, keep⟩ := List.mem_filterMap.mp member
  have within := earlier seg before
  have used : seg.used = true := by
    simp only [keepTxSeg] at keep
    split at keep
    · rename_i both
      exact (Bool.and_eq_true_iff.mp both).1
    · cases keep
  have begins : seg.seq = serial c.sndUna (seg.seq - c.sndUna).toNat := eq_serial_sub _ _
  have cut := @keepTxSeg_cut c.sndUna seg used _ a begins (by omega) (by omega)
  rcases cut with ⟨-, gone⟩ | ⟨beyond, kept, same, start, len⟩
  · rw [gone] at keep
    cases keep
  · rw [same] at keep
    obtain rfl : kept = rest := Option.some.inj keep
    rw [start, len, serial_sub_toNat c.sndUna (by omega) (by omega)]
    omega

/-- An acknowledgement moves the flight on and ends the measurement that it covers. -/
theorem Reckoned.acknowledge {c : TcpConn} (ok : Reckoned position sent c.sendView c.timing)
    (ticks : Word) {ack : Word} (after : tcpSeqAfter ack c.sndUna = true)
    (within : tcpSeqAfter ack c.sndNxt = false) :
    Reckoned (position + (ack - c.sndUna).toNat) sent (tcpAckAdvance ticks ack c).sendView
      (tcpAckAdvance ticks ack c).timing := by
  have small := ok.flight.small
  have used := c.snd.sndUsed_le
  have bounded := ok.flight.bounded
  have flight : c.sendView.flight = (c.sndNxt - c.sndUna).toNat := rfl
  rw [flight] at small bounded
  simp only [tcpBufSize] at used small
  obtain ⟨positive, ahead⟩ := offset_lt_of_after after
  -- Both numbers count from the oldest unacknowledged byte.
  have number := eq_serial_sub c.sndUna ack
  have next := eq_serial_sub c.sndUna c.sndNxt
  generalize (ack - c.sndUna).toNat = a at positive ahead number ⊢
  generalize (c.sndNxt - c.sndUna).toNat = f at flight bounded small next
  have below : a ≤ f := by
    rw [number, next, tcpSeqAfter_serial c.sndUna (by omega) (by omega),
      decide_eq_false_iff_not] at within
    omega
  have view := sendView_tcpAckAdvance ticks ack c
  have left : (tcpAckAdvance ticks ack c).sendView.flight = f - a := by
    rw [view]
    show (c.sndNxt - ack).toNat = f - a
    rw [number, next, serial_sub_toNat c.sndUna below (by omega)]
  have una : (tcpAckAdvance ticks ack c).sendView.sndUna = ack := by rw [view]
  -- A measurement that goes on ends past the acknowledgement.
  have timed : (tcpAckAdvance ticks ack c).timing.pending = true →
      c.rttPending = true ∧ (tcpAckAdvance ticks ack c).timing = c.timing ∧
        a < (c.rttSeq - c.sndUna).toNat ∧ (c.rttSeq - c.sndUna).toNat ≤ f ∧
        (c.rttSeq - ack).toNat = (c.rttSeq - c.sndUna).toNat - a := by
    intro pending
    have timing := timing_tcpAckAdvance ticks ack c
    split at timing
    · rw [timing] at pending
      exact Bool.noConfusion pending
    · rename_i uncovered
      rw [timing] at pending
      have running : c.rttPending = true := pending
      obtain ⟨-, reach⟩ := ok.timed running
      rw [flight] at reach
      have reach : (c.rttSeq - c.sndUna).toNat ≤ f := reach
      have last := eq_serial_sub c.sndUna c.rttSeq
      generalize (c.rttSeq - c.sndUna).toNat = r at reach last ⊢
      have short : tcpSeqBefore ack c.rttSeq = true := by
        by_contra covered
        exact uncovered ⟨running, by simpa using covered⟩
      rw [number, last, tcpSeqBefore_serial c.sndUna (by omega) (by omega),
        decide_eq_true_eq] at short
      refine ⟨running, timing, short, reach, ?_⟩
      rw [number, last, serial_sub_toNat c.sndUna (by omega) (by omega)]
  refine { flight := { bounded := ?_, few := ?_, entries := ?_ }
           past := ?_, timed := ?_, once := ?_ }
  · rw [left, view, number]
    show f - a ≤ c.snd.sndUsed - min (serial c.sndUna a - c.sndUna).toNat c.snd.sndUsed +
      if c.state.unclosed then 0 else 1
    have offset : (serial c.sndUna a - c.sndUna).toNat = a := by
      have same := serial_sub_toNat c.sndUna (Nat.zero_le a) (by omega)
      rwa [serial_zero, Nat.sub_zero] at same
    rw [offset]
    have bounded : f ≤ c.snd.sndUsed + if c.state.unclosed then 0 else 1 := bounded
    generalize (if c.state.unclosed then 0 else 1) = slack at bounded ⊢
    omega
  · rw [view]
    exact (tcpTxAck_entries c ack ok.flight.few).1
  · rw [left, una, view, number]
    exact tcpTxAck_within ok.flight.few (by simp only [tcpBufSize]; omega) below
      fun seg member => by
        have entries := ok.flight.entries seg member
        rw [flight] at entries
        exact entries
  · intro stretch member
    have ends := ok.past stretch member
    rw [left]
    rw [flight] at ends
    omega
  · intro pending
    obtain ⟨-, same, beyond, reach, offset⟩ := timed pending
    rw [left, una, same]
    show 0 < (c.rttSeq - ack).toNat ∧ (c.rttSeq - ack).toNat ≤ f - a
    omega
  · intro pending plain
    obtain ⟨running, same, beyond, reach, offset⟩ := timed pending
    rw [same] at plain
    have once := ok.once running plain
    rw [una, same]
    show SentOnce sent (position + a + (c.rttSeq - ack).toNat)
    rw [offset, Nat.add_assoc, Nat.add_sub_cancel' (Nat.le_of_lt beyond)]
    exact once

end Reckoning

end CatOs.Tcp
