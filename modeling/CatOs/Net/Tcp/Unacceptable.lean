import CatOs.Net.Tcp.Closing
import CatOs.Net.Tcp.Congestion
import CatOs.Net.Tcp.Unmatched

/-! Segments outside the receive window, and what the handler lets them change all the same. -/

namespace CatOs.Tcp

def TcpState.isSynchronized : TcpState → Bool
  | .established | .finWait1 | .finWait2 | .closeWait | .closing | .lastAck | .timeWait => true
  | _ => false

def TcpState.takesData : TcpState → Bool
  | .established | .finWait1 | .finWait2 | .closeWait | .closing => true
  | _ => false

def Outside (s : TcpIn) (c : TcpConn) : Prop :=
  ∀ k < max s.segLen 1, ¬(s.seq + lenWord k - c.rcvNxt).toNat < tcpBufSize - c.rx.rxn

instance (s : TcpIn) (c : TcpConn) : Decidable (Outside s c) :=
  inferInstanceAs (Decidable (∀ k < max s.segLen 1, _))

def AtMostOneAck (sent after : List TcpOut) : Prop :=
  after = sent ∨ ∃ p, after = sent ++ [p] ∧ p.flags = tcpFlagAck ∧ p.data = []

def SameButWindow (c d : TcpConn) : Prop :=
  ∃ window, d = { c with advWin := window }

structure Untouched (io after : TcpIo) : Prop where
  conn : SameButWindow io.conn after.conn
  wire : AtMostOneAck io.wire after.wire

structure KnownWindow (ticks : Word) (s : TcpIn) (c : TcpConn) : Prop where
  window : s.window = c.peerWin
  stopped : s.has tcpFlagAck = true → c.peerWin ≠ 0 →
    c.persistDeadline = 0 ∧ c.persistBackoff = noBackoff
  running : s.has tcpFlagAck = true → c.peerWin = 0 → c.inFlight.toNat < c.snd.sndUsed →
    c.persistDeadline = 0 → ticks + tcpRtoInit = 0
  blocks : tcpParseOpts (resetSack c) s.opts false = c

structure IdleAck (s : TcpIn) (c : TcpConn) : Prop where
  marks : c.sackN ≠ 0 → tcpTxSack c = c
  repeats : ¬(s.ack = c.sndUna ∧ c.inFlight ≠ 0)
  confirms : ¬Acknowledges s c

structure IdleData (env : TcpEnv) (s : TcpIn) (io : TcpIo) : Prop where
  data : s.data ≠ [] → s.seq ≠ io.conn.rcvNxt → (tcpQueueOoo io.conn s.seq s.data).2 = false
  fin : s.has tcpFlagFin = true → s.seq + s.dlen ≠ io.conn.rcvNxt
  pending : io.conn.state = .finWait1 ∨ io.conn.state = .closing → s.has tcpFlagAck = true →
    io.conn.sndUna < io.conn.sndNxt
  once : s.data ≠ [] → s.has tcpFlagFin = true →
    ¬(env.outcome io.calls = .sent ∧ env.outcome (io.calls + 1) = .sent)

structure Ignorable (env : TcpEnv) (s : TcpIn) (io : TcpIo) : Prop where
  fresh : isStale s io.conn = false
  reset : s.has tcpFlagRst = true → s.seq ≠ io.conn.rcvNxt
  window : s.has tcpFlagRst = false → KnownWindow env.ticks s io.conn
  ack : s.has tcpFlagRst = false → s.has tcpFlagAck = true → IdleAck s io.conn
  data : s.has tcpFlagRst = false → io.conn.state.takesData = true → IdleData env s io
  last : s.has tcpFlagRst = false → io.conn.state = .lastAck →
    ¬(s.has tcpFlagFin = true ∧ s.seq + s.dlen + 1 = io.conn.rcvNxt) →
    s.has tcpFlagAck = true → s.ack < io.conn.sndNxt

section Sending

variable (env : TcpEnv) (io : TcpIo)

theorem SameButWindow.field {γ : Type*} {c d : TcpConn} (same : SameButWindow c d)
    (f : TcpConn → γ) (blind : ∀ e window, f { e with advWin := window } = f e) : f d = f c := by
  obtain ⟨window, rfl⟩ := same
  exact blind c window

theorem SameButWindow.trans {c d e : TcpConn} (first : SameButWindow c d)
    (second : SameButWindow d e) : SameButWindow c e := by
  obtain ⟨window, rfl⟩ := first
  obtain ⟨window', rfl⟩ := second
  exact ⟨window', rfl⟩

theorem sameButWindow_tcpPutCtl (flags : Flags) (seq : Word) :
    SameButWindow io.conn (tcpPutCtl env io flags seq).conn :=
  tcpPutPkt_conn ..

theorem Untouched.refl : Untouched io io :=
  ⟨⟨io.conn.advWin, rfl⟩, .inl rfl⟩

theorem Untouched.used {io after : TcpIo} (same : Untouched io after) :
    after.conn.used = io.conn.used :=
  same.conn.field TcpConn.used fun _ _ => rfl

theorem tcpPutCtl_wire (flags : Flags) (seq : Word) :
    (tcpPutCtl env io flags seq).calls = io.calls + 1 ∧
      (env.outcome io.calls ≠ .sent → (tcpPutCtl env io flags seq).wire = io.wire) ∧
      (env.outcome io.calls = .sent → ∃ p, (tcpPutCtl env io flags seq).wire = io.wire ++ [p] ∧
        p.flags = flags ∧ p.data = []) := by
  unfold tcpPutCtl
  simp only [tcpPutPkt]
  cases fate : env.outcome io.calls with
  | noFrame | refused => exact ⟨rfl, fun _ => rfl, fun sent => TxOutcome.noConfusion sent⟩
  | sent => exact ⟨rfl, fun other => absurd rfl other, fun _ => ⟨_, rfl, rfl, rfl⟩⟩

theorem untouched_tcpPutCtl (seq : Word) : Untouched io (tcpPutCtl env io tcpFlagAck seq) := by
  obtain ⟨-, kept, grown⟩ := tcpPutCtl_wire env io tcpFlagAck seq
  refine ⟨tcpPutPkt_conn .., ?_⟩
  by_cases sent : env.outcome io.calls = .sent
  · exact .inr (grown sent)
  · exact .inl (kept sent)

end Sending

section Window

variable {ticks : Word} {s : TcpIn} {c : TcpConn}

theorem persist_tcpHandleWindow :
    (tcpHandleWindow ticks s c).persistDeadline =
        (windowTimer ticks s (setPeerWin s.window c)).persistDeadline ∧
      (tcpHandleWindow ticks s c).persistBackoff =
        (windowTimer ticks s (setPeerWin s.window c)).persistBackoff := by
  obtain ⟨left, right, count, parsed⟩ := tcpParseOpts_blocks
    (resetSack (windowTimer ticks s (setPeerWin s.window c))) s.opts
  rw [tcpHandleWindow, parsed]
  exact ⟨rfl, rfl⟩

/-- The zero-window timer stands where the peer's window wants it. -/
theorem windowTimer_eq_iff : windowTimer ticks s c = c ↔
    (s.has tcpFlagAck = true → c.peerWin ≠ 0 →
      c.persistDeadline = 0 ∧ c.persistBackoff = noBackoff) ∧
    (s.has tcpFlagAck = true → c.peerWin = 0 → c.inFlight.toNat < c.snd.sndUsed →
      c.persistDeadline = 0 → ticks + tcpRtoInit = 0) := by
  unfold windowTimer
  by_cases stops : s.has tcpFlagAck = true ∧ c.peerWin ≠ 0
  · rw [if_pos stops]
    constructor
    · intro same
      have deadline : 0 = c.persistDeadline := congrArg TcpConn.persistDeadline same
      have backoff : noBackoff = c.persistBackoff := congrArg TcpConn.persistBackoff same
      exact ⟨fun _ _ => ⟨deadline.symm, backoff.symm⟩, fun _ zero => absurd zero stops.2⟩
    · intro known
      obtain ⟨deadline, backoff⟩ := known.1 stops.1 stops.2
      have rewritten : ∀ d b, d = c.persistDeadline → b = c.persistBackoff →
          { c with persistDeadline := d, persistBackoff := b } = c := by
        intro d b first second
        subst first second
        rfl
      exact rewritten _ _ deadline.symm backoff.symm
  rw [if_neg stops]
  by_cases starts : s.has tcpFlagAck = true ∧ c.peerWin = 0 ∧ c.snd.sndUsed > c.inFlight.toNat
  · rw [if_pos starts, tcpPersistArm]
    by_cases stopped : c.persistDeadline = 0
    · rw [if_pos stopped]
      constructor
      · intro same
        have deadline : ticks + tcpRtoInit = c.persistDeadline :=
          congrArg TcpConn.persistDeadline same
        exact ⟨fun _ opened => absurd starts.2.1 opened, fun _ _ _ _ => deadline.trans stopped⟩
      · intro known
        have rewritten : ∀ d, d = c.persistDeadline → { c with persistDeadline := d } = c := by
          intro d same
          subst same
          rfl
        exact rewritten _ ((known.2 starts.1 starts.2.1 starts.2.2 stopped).trans stopped.symm)
    · rw [if_neg stopped]
      refine ⟨fun _ => ⟨fun _ opened => absurd starts.2.1 opened, ?_⟩, fun _ => rfl⟩
      intro _ _ _ zero
      exact absurd zero stopped
  · rw [if_neg starts]
    refine ⟨fun _ => ⟨fun acked opened => absurd ⟨acked, opened⟩ stops, ?_⟩, fun _ => rfl⟩
    intro acked zero unsent
    exact absurd ⟨acked, zero, unsent⟩ starts

theorem tcpHandleWindow_eq_iff : tcpHandleWindow ticks s c = c ↔ KnownWindow ticks s c := by
  constructor
  · intro same
    have window : s.window = c.peerWin := by
      rw [← peerWin_tcpHandleWindow ticks s c]
      exact congrArg TcpConn.peerWin same
    have taken : setPeerWin s.window c = c := by
      rw [window]
      rfl
    -- The parser leaves the timer alone, so that the timer was left alone before.
    have timed : windowTimer ticks s c = c := by
      obtain ⟨deadline, backoff⟩ := @persist_tcpHandleWindow ticks s c
      rw [same, taken] at deadline backoff
      obtain ⟨d, b, shape⟩ := windowTimer_fields ticks c s
      rw [shape] at deadline backoff ⊢
      have first : c.persistDeadline = d := deadline
      have second : c.persistBackoff = b := backoff
      rw [← first, ← second]
    obtain ⟨stopped, running⟩ := windowTimer_eq_iff.mp timed
    rw [tcpHandleWindow, taken, timed] at same
    exact ⟨window, stopped, running, same⟩
  · intro known
    have taken : setPeerWin s.window c = c := by
      rw [known.window]
      rfl
    rw [tcpHandleWindow, taken, windowTimer_eq_iff.mpr ⟨known.stopped, known.running⟩]
    exact known.blocks

end Window

section Acknowledging

variable (env : TcpEnv) (s : TcpIn) (io : TcpIo) (oldWin : Half)

def markSack (s : TcpIn) (c : TcpConn) : TcpConn :=
  if s.has tcpFlagAck ∧ c.sackN ≠ 0 then tcpTxSack c else c

theorem markSack_tx (c : TcpConn) :
    markSack s c = { c with tx := (markSack s c).tx } := by
  unfold markSack
  split <;> rfl

theorem dupacks_tcpXmitPending : (tcpXmitPending env io).conn.dupacks = io.conn.dupacks :=
  congrArg Congestion.dupacks (congestion_tcpXmitPending env io)

theorem dupacks_tcpHandleDupAck (inFlight : Word) :
    (tcpHandleDupAck env inFlight io).conn.dupacks = io.conn.dupacks + 1 := by
  have tried := congrArg Congestion.dupacks
    (congestion_sackRetransmit env (io.modify countDupAck))
  have counted : (sackRetransmit env (io.modify countDupAck)).1.conn.dupacks =
      io.conn.dupacks + 1 := tried
  simp only [tcpHandleDupAck]
  by_cases third : (sackRetransmit env (io.modify countDupAck)).1.conn.dupacks = 3
  · -- Entering recovery writes the count that was reached.
    rw [if_pos third, ← counted, third]
    obtain ⟨_, entered⟩ := congestion_tcpFastRetransmit env
      (sackRetransmit env (io.modify countDupAck)).1 inFlight
      (sackRetransmit env (io.modify countDupAck)).2
    exact congrArg Congestion.dupacks entered
  rw [if_neg third]
  split
  · have widened : ∀ cwnd (d : TcpConn), (setCwnd cwnd d).dupacks = d.dupacks := fun _ _ => rfl
    rw [dupacks_tcpXmitPending, TcpIo.modify_conn, inflateCwnd, widened, counted]
  · exact counted

theorem peerWin_tcpXmitPending : (tcpXmitPending env io).conn.peerWin = io.conn.peerWin := by
  refine tcpXmitPending_frame env io TcpConn.peerWin (fun _ _ => rfl) ?_ ?_
  · intro c
    unfold tcpPersistArm
    split <;> rfl
  · intro n c
    obtain ⟨_, noted⟩ := noteSent_fields env.ticks c n
    rw [noted]

/-- An acknowledgement that is seen in neither of these fields only marks the scoreboard. -/
theorem tcpHandleAck_unseen
    (una : (tcpHandleAck env s oldWin io).conn.sndUna = io.conn.sndUna)
    (dupacks : (tcpHandleAck env s oldWin io).conn.dupacks = io.conn.dupacks)
    (window : (tcpHandleAck env s oldWin io).conn.peerWin = oldWin) :
    tcpHandleAck env s oldWin io = io.modify (markSack s) ∧ (s.has tcpFlagAck = true →
      ¬(s.ack = io.conn.sndUna ∧ io.conn.inFlight ≠ 0 ∧ io.conn.peerWin ≤ oldWin) ∧
        ¬Acknowledges s io.conn) := by
  by_cases acked : s.has tcpFlagAck = true
  · have marked : (if io.conn.sackN ≠ 0 then io.modify tcpTxSack else io) =
        io.modify (markSack s) := by
      unfold markSack TcpIo.modify
      simp only [acked, true_and]
      split <;> rfl
    obtain ⟨marks, tx⟩ : ∃ marks,
        io.modify (markSack s) = io.modify fun c => { c with tx := marks } :=
      ⟨_, congrArg (fun c => { io with conn := c }) (markSack_tx s io.conn)⟩
    rw [tx] at marked ⊢
    simp only [tcpHandleAck, acked, marked, Bool.not_true, Bool.false_eq_true, if_false,
      TcpIo.modify_conn] at una dupacks window ⊢
    by_cases repeated : s.ack = io.conn.sndUna ∧ io.conn.inFlight ≠ 0 ∧ io.conn.peerWin ≤ oldWin
    · -- A repeated acknowledgement is counted.
      rw [if_pos repeated, dupacks_tcpHandleDupAck] at dupacks
      exact absurd dupacks (by simp)
    rw [if_neg repeated] at una window ⊢
    by_cases opens : s.ack = io.conn.sndUna ∧ io.conn.peerWin > oldWin
    · -- An opened window is remembered.
      rw [if_pos opens, peerWin_tcpXmitPending] at window
      have same : io.conn.peerWin = oldWin := window
      rw [same] at opens
      exact absurd opens.2 (by simp)
    rw [if_neg opens] at una ⊢
    by_cases confirms : tcpSeqAfter s.ack io.conn.sndUna = true ∧
        (!tcpSeqAfter s.ack io.conn.sndNxt) = true
    · -- An acknowledged byte is remembered.
      rw [if_pos confirms, sndUna_tcpHandleNewAck] at una
      rw [una] at confirms
      simp [tcpSeqAfter] at confirms
    rw [if_neg confirms]
    refine ⟨rfl, fun _ => ⟨repeated, ?_⟩⟩
    intro both
    exact confirms ⟨both.1, by simpa using both.2⟩
  · have plain : markSack s = id := by
      funext c
      simp [markSack, acked]
    refine ⟨?_, fun other => absurd other acked⟩
    simp only [tcpHandleAck, acked, Bool.not_false, if_true, plain]
    rfl

end Acknowledging

section Receiving

variable {env : TcpEnv} {s : TcpIn} {io : TcpIo}

theorem Outside.full {c : TcpConn} (outside : Outside s c) (next : s.seq = c.rcvNxt) :
    c.rx.rxn = tcpBufSize := by
  have first := outside 0 (by omega)
  rw [next, show lenWord 0 = 0 from rfl, add_zero, BitVec.sub_self] at first
  have full := c.rx.rxn_le
  simp only [BitVec.toNat_zero] at first
  omega

theorem fillOoo_ooo {c : TcpConn} {i : Nat} (free : (c.ooo i).used = false) (seq : Word)
    (len : Nat) (data : List UInt8) : (fillOoo c i seq len data).ooo ≠ c.ooo := by
  intro same
  have slot := congrArg OooSlot.used (congrFun same i)
  rw [free] at slot
  simp [fillOoo, TcpConn.setOoo] at slot

theorem tcpAcceptData_outside {c : TcpConn} (outside : Outside s c) (some : s.data ≠ []) :
    ((s.seq ≠ c.rcvNxt → (tcpQueueOoo c s.seq s.data).2 = false) →
        (tcpAcceptData c s.seq s.data).1 = c) ∧
      ((tcpAcceptData c s.seq s.data).1.ooo = c.ooo →
        s.seq ≠ c.rcvNxt → (tcpQueueOoo c s.seq s.data).2 = false) := by
  have positive : 0 < s.data.length := List.length_pos_of_ne_nil some
  simp only [tcpAcceptData]
  by_cases next : s.seq = c.rcvNxt
  · -- In order, the buffer is full.
    have full := outside.full next
    have refused : ¬(s.data.length ≤ tcpMss ∧ c.rx.rxn + s.data.length ≤ tcpBufSize) := by omega
    rw [if_neg (not_not_intro next), if_neg refused]
    exact ⟨fun _ => rfl, fun _ other => absurd next other⟩
  · rw [if_pos next]
    rcases tcpQueueOoo_cases c s.seq s.data with refused | ⟨i, trim, queued, filled⟩
    · rw [refused]
      exact ⟨fun _ => rfl, fun _ _ => rfl⟩
    · rw [filled]
      refine ⟨fun other => Bool.noConfusion (other next), fun same => ?_⟩
      exact absurd same (fillOoo_ooo queued.free _ _ _)

theorem ooo_tcpHandleFin (env : TcpEnv) (io : TcpIo) :
    (tcpHandleFin env io).conn.ooo = io.conn.ooo := by
  have put : ∀ (next : TcpIo) flags seq,
      (tcpPutCtl env next flags seq).conn.ooo = next.conn.ooo := fun next flags seq =>
    (sameButWindow_tcpPutCtl env next flags seq).field TcpConn.ooo fun _ _ => rfl
  have acked : (tcpAckFin env io).conn.ooo = io.conn.ooo := put _ _ _
  rw [← acked]
  unfold tcpHandleFin tcpFinState
  split
  · split <;> rfl
  · rfl
  · rfl
  · rfl
  · exact put _ _ _

theorem ooo_tcpFinishClose (ticks : Word) (s : TcpIn) (c : TcpConn) :
    (tcpFinishClose ticks s c).ooo = c.ooo := by
  simp only [tcpFinishClose]
  split <;> split <;> rfl

theorem tcpFinishClose_pending {ticks : Word} {c : TcpConn} :
    ((c.state = .finWait1 ∨ c.state = .closing → s.has tcpFlagAck = true → c.sndUna < c.sndNxt) →
        tcpFinishClose ticks s c = c) ∧
      ((tcpFinishClose ticks s c).state = c.state →
        c.state = .finWait1 ∨ c.state = .closing → s.has tcpFlagAck = true →
          c.sndUna < c.sndNxt) := by
  constructor
  · intro pending
    have unacked : ∀ {state : TcpState}, state = .finWait1 ∨ state = .closing →
        ¬(c.state = state ∧ s.has tcpFlagAck = true ∧ c.sndUna ≥ c.sndNxt) := by
      intro state which both
      rw [← both.1] at which
      exact absurd both.2.2 (BitVec.not_le.mpr (pending which both.2.1))
    simp only [tcpFinishClose]
    rw [if_neg (unacked (.inl rfl)), if_neg (unacked (.inr rfl))]
  · intro same which acked
    apply BitVec.not_le.mp
    intro confirmed
    rcases which with waiting | closing
    · simp [tcpFinishClose, enterFinWait2, waiting, acked, confirmed] at same
    · simp [tcpFinishClose, enterTimeWait, closing, acked, confirmed] at same

def refuseData (env : TcpEnv) (s : TcpIn) (io : TcpIo) : TcpIo :=
  if s.data.length = 0 then io else tcpPutCtl env io tcpFlagAck io.conn.sndNxt

def refuseAll (env : TcpEnv) (s : TcpIn) (io : TcpIo) : TcpIo :=
  if s.has tcpFlagFin then
    tcpPutCtl env (refuseData env s io) tcpFlagAck (refuseData env s io).conn.sndNxt
  else refuseData env s io

theorem tcpHandleData_refused
    (refused : s.data ≠ [] → (tcpAcceptData io.conn s.seq s.data).1 = io.conn) :
    tcpHandleData env s io = refuseData env s io := by
  simp only [tcpHandleData, refuseData]
  by_cases empty : s.data.length = 0
  · rw [if_pos empty, if_pos empty]
  · have same : (io.modify fun c => (tcpAcceptData c s.seq s.data).1) = io := by
      show { io with conn := (tcpAcceptData io.conn s.seq s.data).1 } = io
      rw [refused (fun none => empty (List.length_eq_zero_iff.mpr none))]
    rw [if_neg empty, if_neg empty, same]

theorem refuseData_conn (env : TcpEnv) (s : TcpIn) (io : TcpIo) :
    SameButWindow io.conn (refuseData env s io).conn := by
  unfold refuseData
  split
  · exact ⟨_, rfl⟩
  · exact tcpPutPkt_conn ..

theorem refuseAll_conn (env : TcpEnv) (s : TcpIn) (io : TcpIo) :
    SameButWindow io.conn (refuseAll env s io).conn := by
  unfold refuseAll
  split
  · exact (refuseData_conn env s io).trans (sameButWindow_tcpPutCtl ..)
  · exact refuseData_conn env s io

/-- Refusing sends one acknowledgement, unless data and close are refused one by one. -/
theorem refuseAll_wire : AtMostOneAck io.wire (refuseAll env s io).wire ↔
    (s.data ≠ [] → s.has tcpFlagFin = true →
      ¬(env.outcome io.calls = .sent ∧ env.outcome (io.calls + 1) = .sent)) := by
  have nonempty : s.data ≠ [] ↔ ¬s.data.length = 0 := not_congr List.length_eq_zero_iff.symm
  unfold refuseAll refuseData
  rw [nonempty]
  by_cases empty : s.data.length = 0
  · -- At most the close is answered.
    rw [if_pos empty]
    refine ⟨fun _ some => absurd empty some, fun _ => ?_⟩
    split
    · exact (untouched_tcpPutCtl env io _).wire
    · exact .inl rfl
  rw [if_neg empty]
  by_cases fin : s.has tcpFlagFin = true
  · rw [if_pos fin]
    obtain ⟨calls, kept, grown⟩ := tcpPutCtl_wire env io tcpFlagAck io.conn.sndNxt
    obtain ⟨-, kept', grown'⟩ := tcpPutCtl_wire env (tcpPutCtl env io tcpFlagAck io.conn.sndNxt)
      tcpFlagAck (tcpPutCtl env io tcpFlagAck io.conn.sndNxt).conn.sndNxt
    rw [calls] at kept' grown'
    by_cases first : env.outcome io.calls = .sent
    · obtain ⟨p, sent, bare⟩ := grown first
      by_cases second : env.outcome (io.calls + 1) = .sent
      · -- Both went out.
        obtain ⟨q, sent', -⟩ := grown' second
        rw [sent', sent]
        refine ⟨fun once => ?_, fun none => absurd ⟨first, second⟩ (none empty fin)⟩
        rcases once with same | ⟨r, same, -⟩
        · have lengths := congrArg List.length same
          simp at lengths
        · have lengths := congrArg List.length same
          simp at lengths
      · rw [kept' second, sent]
        exact ⟨fun _ _ _ both => second both.2, fun _ => .inr ⟨p, rfl, bare⟩⟩
    · refine ⟨fun _ _ _ both => first both.1, fun _ => ?_⟩
      rw [← kept first]
      exact (untouched_tcpPutCtl env _ _).wire
  · rw [if_neg fin]
    exact ⟨fun _ _ other => absurd other fin, fun _ => (untouched_tcpPutCtl env io _).wire⟩

/-- In the states that take data, a segment outside the window is refused under one condition. -/
theorem untouched_tcpHandleOpen_iff (outside : Outside s io.conn) :
    Untouched io (tcpHandleOpen env s io) ↔ IdleData env s io := by
  have all := refuseAll_conn env s io
  have next := (refuseData_conn env s io).field TcpConn.rcvNxt fun _ _ => rfl
  -- Once the data is refused, the close decides what follows.
  have rest : (s.data ≠ [] → (tcpAcceptData io.conn s.seq s.data).1 = io.conn) →
      tcpHandleOpen env s io =
        if s.has tcpFlagFin ∧ s.seq + s.dlen = io.conn.rcvNxt then
          tcpHandleFin env (refuseData env s io)
        else (refuseAll env s io).modify (tcpFinishClose env.ticks s) := by
    intro refused
    simp only [tcpHandleOpen, tcpHandleData_refused refused, next]
    rfl
  constructor
  · intro same
    -- The slots are as they were, so that no data was kept.
    have slots : (tcpHandleOpen env s io).conn.ooo = (tcpHandleData env s io).conn.ooo := by
      simp only [tcpHandleOpen]
      split
      · exact ooo_tcpHandleFin env _
      · rw [TcpIo.modify_conn, ooo_tcpFinishClose]
        split
        · exact (sameButWindow_tcpPutCtl ..).field TcpConn.ooo fun _ _ => rfl
        · rfl
    have unkept : s.data ≠ [] → s.seq ≠ io.conn.rcvNxt →
        (tcpQueueOoo io.conn s.seq s.data).2 = false := by
      intro some
      apply (tcpAcceptData_outside outside some).2
      have stored : (tcpHandleData env s io).conn.ooo =
          (tcpAcceptData io.conn s.seq s.data).1.ooo := by
        have nonempty : ¬s.data.length = 0 := fun none => some (List.length_eq_zero_iff.mp none)
        simp only [tcpHandleData]
        rw [if_neg nonempty]
        exact (sameButWindow_tcpPutCtl ..).field TcpConn.ooo fun _ _ => rfl
      rw [← stored, ← slots]
      exact same.conn.field TcpConn.ooo fun _ _ => rfl
    have opened := rest fun some => (tcpAcceptData_outside outside some).1 (unkept some)
    have fin : s.has tcpFlagFin = true → s.seq + s.dlen ≠ io.conn.rcvNxt := by
      intro closes inOrder
      rw [if_pos ⟨closes, inOrder⟩] at opened
      have counted : (tcpHandleOpen env s io).conn.rcvNxt = io.conn.rcvNxt + 1 := by
        have moved : Advances env (refuseData env s io) _ 1 := advances_tcpHandleFin _
        rw [opened, moved.number, next]
        rfl
      have kept := same.conn.field TcpConn.rcvNxt fun _ _ => rfl
      rw [counted] at kept
      simp at kept
    rw [if_neg (fun both => fin both.1 both.2)] at opened
    have finished : (tcpFinishClose env.ticks s (refuseAll env s io).conn).state =
        (refuseAll env s io).conn.state := by
      have state := same.conn.field TcpConn.state fun _ _ => rfl
      rw [opened] at state
      exact state.trans (all.field TcpConn.state fun _ _ => rfl).symm
    have pending := tcpFinishClose_pending.2 finished
    rw [all.field TcpConn.state fun _ _ => rfl, all.field TcpConn.sndUna fun _ _ => rfl,
      all.field TcpConn.sndNxt fun _ _ => rfl] at pending
    refine { data := unkept, fin := fin, pending := pending, once := ?_ }
    apply refuseAll_wire.mp
    have wire := same.wire
    rw [opened] at wire
    exact wire
  · intro idle
    have opened := rest fun some => (tcpAcceptData_outside outside some).1 (idle.data some)
    have pending : tcpFinishClose env.ticks s (refuseAll env s io).conn =
        (refuseAll env s io).conn := by
      apply tcpFinishClose_pending.1
      rw [all.field TcpConn.state fun _ _ => rfl, all.field TcpConn.sndUna fun _ _ => rfl,
        all.field TcpConn.sndNxt fun _ _ => rfl]
      exact idle.pending
    have unfinished : (refuseAll env s io).modify (tcpFinishClose env.ticks s) =
        refuseAll env s io := by
      show { refuseAll env s io with
        conn := tcpFinishClose env.ticks s (refuseAll env s io).conn } = _
      rw [pending]
    rw [opened, if_neg (fun both => idle.fin both.1 both.2), unfinished]
    exact ⟨all, refuseAll_wire.mpr idle.once⟩

/-- Past the acknowledgement, a segment outside the window is refused state by state. -/
theorem untouched_tcpHandleState_iff (used : io.conn.used = true)
    (synchronized : io.conn.state.isSynchronized = true) (outside : Outside s io.conn) :
    Untouched io (tcpHandleState env s io) ↔
      (io.conn.state.takesData = true → IdleData env s io) ∧
      (io.conn.state = .lastAck →
        ¬(s.has tcpFlagFin = true ∧ s.seq + s.dlen + 1 = io.conn.rcvNxt) →
        s.has tcpFlagAck = true → s.ack < io.conn.sndNxt) := by
  have opened := @untouched_tcpHandleOpen_iff env s io outside
  unfold tcpHandleState
  cases state : io.conn.state with
  | closed | listen | synSent | synReceived =>
    rw [state] at synchronized; exact Bool.noConfusion synchronized
  | established | finWait1 | finWait2 | closeWait | closing => simp [opened, TcpState.takesData]
  | lastAck =>
    simp only [TcpState.takesData, Bool.false_eq_true, false_implies, true_and, true_implies]
    by_cases again : s.has tcpFlagFin = true ∧ s.seq + s.dlen + 1 = io.conn.rcvNxt
    · -- A repeated close is acknowledged once more.
      rw [if_pos again]
      exact ⟨fun _ other => absurd again other, fun _ => untouched_tcpPutCtl env io _⟩
    rw [if_neg again]
    by_cases confirmed : s.has tcpFlagAck = true ∧ s.ack ≥ io.conn.sndNxt
    · rw [if_pos confirmed]
      constructor
      · intro same
        exact Bool.noConfusion (same.used.trans used)
      · intro pending
        exact absurd confirmed.2 (BitVec.not_le.mpr (pending again confirmed.1))
    · rw [if_neg confirmed]
      refine ⟨fun _ _ acked => ?_, fun _ => .refl io⟩
      apply BitVec.not_le.mp
      intro reaches
      exact confirmed ⟨acked, reaches⟩
  | timeWait =>
    simp only [TcpState.takesData, Bool.false_eq_true, false_implies, true_and, reduceCtorEq,
      iff_true]
    split
    · exact untouched_tcpPutCtl env io _
    · exact .refl io

theorem untouched_tcpHandleRst_iff (used : io.conn.used = true) (outside : Outside s io.conn) :
    Untouched io (tcpHandleRst env s io) ↔ s.seq ≠ io.conn.rcvNxt := by
  have challenge : ¬(s.seq ≠ io.conn.rcvNxt ∧ tcpSeqAfter s.seq io.conn.rcvNxt = true ∧
      tcpSeqBefore s.seq (io.conn.rcvNxt + lenWord (tcpBufSize - io.conn.rx.rxn)) = true) := by
    intro inside
    have first := outside 0 (by omega)
    rw [show lenWord 0 = 0 from rfl, add_zero] at first
    obtain ⟨positive, ahead⟩ := offset_lt_of_after inside.2.1
    have small : tcpBufSize - io.conn.rx.rxn ≤ 4096 := Nat.sub_le _ _
    have below := inside.2.2
    rw [eq_serial_sub io.conn.rcvNxt s.seq] at below
    have edge : io.conn.rcvNxt + lenWord (tcpBufSize - io.conn.rx.rxn) =
        serial io.conn.rcvNxt (tcpBufSize - io.conn.rx.rxn) := rfl
    rw [edge, tcpSeqBefore_serial _ (by omega) (by omega), decide_eq_true_eq] at below
    exact first below
  simp only [tcpHandleRst]
  rw [if_neg challenge]
  by_cases next : s.seq = io.conn.rcvNxt
  · rw [if_pos next]
    refine ⟨fun same => ?_, fun other => absurd next other⟩
    exact Bool.noConfusion (same.used.trans used)
  · rw [if_neg next]
    exact ⟨fun _ => next, fun _ => .refl io⟩

end Receiving

section Handling

variable {env : TcpEnv} {s : TcpIn} {io : TcpIo}

def TcpConn.heard (c : TcpConn) :=
  ((c.peerWin, c.persistDeadline, c.persistBackoff), (c.sackLeft, c.sackRight, c.sackN), c.tx,
    c.sndUna, c.dupacks)

theorem heard_tcpHandleState (env : TcpEnv) (s : TcpIn) (io : TcpIo) :
    (tcpHandleState env s io).conn.heard = io.conn.heard :=
  eq_of_erased (eraseTurn_tcpHandleState env s io) TcpConn.heard fun _ => rfl

theorem told_nothing (ticks : Word) {c : TcpConn}
    (same : (markSack s (tcpHandleWindow ticks s c)).heard = c.heard) :
    tcpHandleWindow ticks s c = c ∧ markSack s c = c := by
  obtain ⟨deadline, backoff, left, right, count, shape⟩ := tcpHandleWindow_fields ticks c s
  have marked := markSack_tx s (tcpHandleWindow ticks s c)
  generalize (markSack s (tcpHandleWindow ticks s c)).tx = tx at marked
  rw [marked, shape] at same
  simp only [TcpConn.heard, Prod.mk.injEq, and_true] at same
  obtain ⟨⟨window, first, second⟩, ⟨lefts, rights, counts⟩, marks⟩ := same
  have kept : tcpHandleWindow ticks s c = c := by
    rw [shape, window, first, second, lefts, rights, counts]
  refine ⟨kept, ?_⟩
  rw [kept, marks] at marked
  exact marked

/-- What precedes the states changes nothing exactly if it tells nothing new. -/
theorem untouched_processed_iff :
    Untouched io (tcpHandleState env s (tcpHandleAck env s io.conn.peerWin
        (io.modify (tcpHandleWindow env.ticks s)))) ↔
      KnownWindow env.ticks s io.conn ∧ (s.has tcpFlagAck = true → IdleAck s io.conn) ∧
        Untouched io (tcpHandleState env s io) := by
  have whole : ∀ f : TcpConn → TcpConn, f io.conn = io.conn → io.modify f = io := by
    intro f same
    show { io with conn := f io.conn } = io
    rw [same]
  constructor
  · intro same
    have told : (tcpHandleAck env s io.conn.peerWin
        (io.modify (tcpHandleWindow env.ticks s))).conn.heard = io.conn.heard := by
      rw [← heard_tcpHandleState env s]
      exact same.conn.field TcpConn.heard fun _ _ => rfl
    obtain ⟨deadline, backoff, left, right, count, shape⟩ :=
      tcpHandleWindow_fields env.ticks io.conn s
    have una : (tcpHandleWindow env.ticks s io.conn).sndUna = io.conn.sndUna := by rw [shape]
    have dupacks : (tcpHandleWindow env.ticks s io.conn).dupacks = io.conn.dupacks := by rw [shape]
    obtain ⟨marked, idle⟩ := tcpHandleAck_unseen env s
      (io.modify (tcpHandleWindow env.ticks s)) io.conn.peerWin
      ((congrArg (fun h => h.2.2.2.1) told).trans una.symm)
      ((congrArg (fun h => h.2.2.2.2) told).trans dupacks.symm)
      (congrArg (fun h => h.1.1) told)
    rw [marked] at told
    obtain ⟨known, marks⟩ := told_nothing env.ticks told
    rw [whole _ known] at marked idle same
    rw [marked, whole _ marks] at same
    have window := tcpHandleWindow_eq_iff.mp known
    refine ⟨window, fun acked => ?_, same⟩
    obtain ⟨repeats, confirms⟩ := idle acked
    refine { marks := ?_, repeats := ?_, confirms := confirms }
    · intro some
      rw [markSack, if_pos ⟨acked, some⟩] at marks
      exact marks
    · intro both
      exact repeats ⟨both.1, both.2, BitVec.le_refl _⟩
  · intro quiet
    obtain ⟨known, idle, same⟩ := quiet
    rw [whole _ (tcpHandleWindow_eq_iff.mpr known)]
    have unheard : tcpHandleAck env s io.conn.peerWin io = io := by
      by_cases acked : s.has tcpFlagAck = true
      · obtain ⟨marks, repeats, confirms⟩ := idle acked
        have marked : (if io.conn.sackN ≠ 0 then io.modify tcpTxSack else io) = io := by
          split
          · rename_i some
            exact whole _ (marks some)
          · rfl
        have other : ¬(tcpSeqAfter s.ack io.conn.sndUna = true ∧
            (!tcpSeqAfter s.ack io.conn.sndNxt) = true) := by
          intro both
          exact confirms ⟨both.1, by simpa using both.2⟩
        simp only [tcpHandleAck, acked, Bool.not_true, Bool.false_eq_true, if_false, marked]
        rw [if_neg (fun both => repeats ⟨both.1, both.2.1⟩),
          if_neg (fun both => BitVec.lt_irrefl _ both.2), if_neg other]
      · simp [tcpHandleAck, acked]
    rw [unheard]
    exact same

/--
A segment outside the receive window of a synchronized connection leaves it as it was, apart from
one acknowledgement, exactly if all that it would change is as the segment has it.

The window, the options and the acknowledgement are taken over before any sequence number is looked
at, and data beyond the window is kept.
-/
theorem unacceptable_ignored_iff (env : TcpEnv) {s : TcpIn} {io : TcpIo}
    (used : io.conn.used = true) (synchronized : io.conn.state.isSynchronized = true)
    (outside : Outside s io.conn) :
    Untouched io (tcpSegment env s io) ↔ Ignorable env s io := by
  have settled : ¬(io.conn.state = .synReceived ∧ s.has tcpFlagSyn = true ∧
      s.seq = io.conn.rcvIsn) := by
    intro asked
    rw [asked.1] at synchronized
    exact Bool.noConfusion synchronized
  unfold tcpSegment
  rw [used, Bool.not_true, if_neg Bool.false_ne_true]
  by_cases stale : isStale s io.conn = true
  · -- A new connection request releases what is left of the old connection.
    rw [if_pos stale]
    constructor
    · intro same
      exact Bool.noConfusion (same.used.trans used)
    · intro ignorable
      exact absurd stale (by rw [ignorable.fresh]; decide)
  rw [if_neg stale]
  have fresh : isStale s io.conn = false := by simpa using stale
  simp only [tcpHandleConn]
  rw [if_neg settled]
  by_cases reset : s.has tcpFlagRst = true
  · rw [if_pos reset, untouched_tcpHandleRst_iff used outside]
    constructor
    · intro other
      have no : s.has tcpFlagRst ≠ false := by rw [reset]; decide
      exact { fresh := fresh, reset := fun _ => other, window := fun plain => absurd plain no
              ack := fun plain => absurd plain no, data := fun plain => absurd plain no
              last := fun plain => absurd plain no }
    · intro ignorable
      exact ignorable.reset reset
  · rw [if_neg reset, untouched_processed_iff,
      untouched_tcpHandleState_iff used synchronized outside]
    have plain : s.has tcpFlagRst = false := by simpa using reset
    constructor
    · intro quiet
      obtain ⟨known, idle, data, last⟩ := quiet
      exact { fresh := fresh, reset := fun other => absurd other reset, window := fun _ => known
              ack := fun _ => idle, data := fun _ => data, last := fun _ => last }
    · intro ignorable
      exact ⟨ignorable.window plain, ignorable.ack plain, ignorable.data plain,
        ignorable.last plain⟩

def oneInFlight (env : TcpEnv) : TcpIo :=
  runInputs tcpStep [(env, .segment (plainIn tcpFlagAck 101 8 500)), (env, .send [65])]
    (tcpSynAccept env (plainIn tcpFlagSyn 100 0 500) 1 7 zeroConn)

/-- An old acknowledgement far outside the window, with the window that is known, is ignored. -/
theorem unacceptable_ignored_old :
    let env : TcpEnv := { ticks := 5, outcome := fun _ => .sent }
    let s := plainIn tcpFlagAck 50000 5 500
    Outside s (oneInFlight env).conn ∧
      Untouched (oneInFlight env) (tcpSegment env s (oneInFlight env)) := by
  intro env s
  have outside : Outside s (oneInFlight env).conn := by decide
  have reported : ∀ c : TcpConn, c.sackN = 0 → tcpParseOpts (resetSack c) [] false = c := by
    intro c none
    show { c with sackN := 0 } = c
    rw [← none]
  have idle : IdleData env s (oneInFlight env) :=
    { data := fun some => absurd rfl some, fin := fun closes => absurd closes (by decide)
      pending := fun which => absurd which (by decide), once := fun some => absurd rfl some }
  have ignorable : Ignorable env s (oneInFlight env) :=
    { fresh := by decide
      reset := fun reset => absurd reset (by decide)
      window := fun _ =>
        { window := by decide, stopped := by decide
          running := fun _ shut => absurd shut (by decide)
          blocks := reported _ (by decide) }
      ack := fun _ _ =>
        { marks := fun some => absurd (by decide) some
          repeats := fun both => absurd both.1 (by decide)
          confirms := fun both => absurd both.1 (by decide) }
      data := fun _ _ => idle
      last := fun _ last => absurd last (by decide) }
  exact ⟨outside, (unacceptable_ignored_iff env (by decide) (by decide) outside).mpr
    ignorable⟩

/-- A segment far outside the window acknowledges the byte in flight and shuts the peer's window. -/
theorem unacceptable_segment_taken :
    let env : TcpEnv := { ticks := 5, outcome := fun _ => .sent }
    let s := plainIn tcpFlagAck 50000 9 0
    let after := tcpSegment env s (oneInFlight env)
    (oneInFlight env).conn.used = true ∧ (oneInFlight env).conn.state = .established ∧
      Outside s (oneInFlight env).conn ∧
      (oneInFlight env).conn.sndUna = 8 ∧ after.conn.sndUna = 9 ∧
      (oneInFlight env).conn.peerWin = 500 ∧ after.conn.peerWin = 0 ∧
      ¬Untouched (oneInFlight env) after := by
  intro env s after
  have before : (oneInFlight env).conn.sndUna = 8 := by decide
  have moved : after.conn.sndUna = 9 := by decide
  refine ⟨by decide, by decide, by decide, before, moved,
    by decide, by decide, fun same => ?_⟩
  have kept := same.conn.field TcpConn.sndUna fun _ _ => rfl
  rw [before, moved] at kept
  exact absurd kept (by decide)

end Handling

end CatOs.Tcp
