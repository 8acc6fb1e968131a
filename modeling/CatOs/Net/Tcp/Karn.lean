import CatOs.Net.Tcp.Closing
import CatOs.Net.Tcp.Congestion
import CatOs.Net.Tcp.Transmissions

/-! Round-trip samples: which segments they measure, and that these were transmitted once. -/

namespace CatOs.Tcp

def Samples (s : TcpIn) (c : TcpConn) : Prop :=
  Processed s c ∧ Acknowledges s c ∧ c.rttPending = true ∧ tcpSeqBefore s.ack c.rttSeq = false ∧
    c.rttRetransmitted = false

instance (s : TcpIn) (c : TcpConn) : Decidable (Samples s c) :=
  inferInstanceAs (Decidable ((_ ∧ _ ∧ ¬(_ ∧ _ ∧ _) ∧ _ ∧ _) ∧ (_ ∧ _) ∧ _ ∧ _ ∧ _))

def ProbesInFlight (input : TcpEnv × TcpOp) (io : TcpIo) : Prop :=
  input.2 = .tick → io.conn.used = true → io.conn.state ≠ .timeWait →
    let tested := tcpTestTick input.1 io
    expired input.1.ticks tested.conn.persistDeadline = true → tested.conn.peerWin = 0 →
    tested.conn.inFlight.toNat < tested.conn.snd.sndUsed →
    input.1.outcome tested.calls = .sent → tested.conn.inFlight ≠ 0

def Reckons (una : Word) (position : Nat) (sent : List Stretch) (wire : List TcpOut) (io : TcpIo) :
    Prop :=
  io.conn.sndUna = una ∧ ∃ new, io.wire = wire ++ new ∧
    Reckoned position (sent ++ new.filterMap (carried una position)) io.conn.sendView
      io.conn.timing

section Sending

variable {una : Word} {position : Nat} {sent : List Stretch} {wire : List TcpOut} {io : TcpIo}

theorem Reckons.setState (inv : Reckons una position sent wire io) {f : TcpConn → TcpConn}
    (state : TcpState) (view : (f io.conn).sendView = { io.conn.sendView with state := state })
    (timing : (f io.conn).timing = io.conn.timing)
    (opened : state.unclosed = true → io.conn.state.unclosed = true) :
    Reckons una position sent wire (io.modify f) := by
  obtain ⟨number, new, grown, ok⟩ := inv
  refine ⟨?_, new, grown, ?_⟩
  · rw [← number]
    exact congrArg SendView.sndUna view
  · rw [TcpIo.modify_conn, view, timing]
    exact ok.setState opened

theorem Reckons.modify (inv : Reckons una position sent wire io) {f : TcpConn → TcpConn}
    (view : (f io.conn).sendView = io.conn.sendView) (timing : (f io.conn).timing = io.conn.timing) :
    Reckons una position sent wire (io.modify f) :=
  inv.setState io.conn.state view timing id

theorem timing_tcpPutPkt (env : TcpEnv) (io : TcpIo) (flags : Flags) (seq ack : Word)
    (data : List UInt8) :
    (tcpPutPkt env io flags seq ack data).1.conn.timing = io.conn.timing := by
  obtain ⟨window, same⟩ := tcpPutPkt_conn env io flags seq ack data
  rw [same]
  rfl

theorem tcpPutPkt_appends (env : TcpEnv) (io : TcpIo) (flags : Flags) (seq ack : Word)
    (data : List UInt8) :
    ((tcpPutPkt env io flags seq ack data).2 = false ∧
        (tcpPutPkt env io flags seq ack data).1.wire = io.wire) ∨
      ((tcpPutPkt env io flags seq ack data).2 = true ∧ ∃ p,
        (tcpPutPkt env io flags seq ack data).1.wire = io.wire ++ [p] ∧
        p.seq = seq ∧ p.data = data) := by
  simp only [tcpPutPkt]
  split
  · exact .inl ⟨rfl, rfl⟩
  split
  · exact .inr ⟨rfl, _, rfl, rfl, rfl⟩
  · exact .inl ⟨rfl, rfl⟩

section Reckons

variable (inv : Reckons una position sent wire io)
include inv

theorem Reckons.unsent {env : TcpEnv} {flags : Flags}
    {seq ack : Word} {data : List UInt8}
    (failed : (tcpPutPkt env io flags seq ack data).2 = false) :
    Reckons una position sent wire (tcpPutPkt env io flags seq ack data).1 := by
  obtain ⟨number, new, grown, ok⟩ := inv
  have view := sendView_tcpPutPkt env io flags seq ack data
  refine ⟨?_, new, ?_, ?_⟩
  · rw [← number]
    exact congrArg SendView.sndUna view
  · rcases tcpPutPkt_appends env io flags seq ack data with ⟨-, same⟩ | ⟨done, -⟩
    · rw [same, grown]
    · rw [failed] at done
      cases done
  · rw [view, timing_tcpPutPkt]
    exact ok

theorem Reckons.tcpPutCtl (env : TcpEnv) (flags : Flags)
    (seq : Word) : Reckons una position sent wire (tcpPutCtl env io flags seq) := by
  unfold CatOs.Tcp.tcpPutCtl
  rcases tcpPutPkt_appends env io flags seq io.conn.rcvNxt [] with ⟨failed, -⟩ | ⟨-, p, out, -, empty⟩
  · exact inv.unsent failed
  · obtain ⟨number, new, grown, ok⟩ := inv
    have view := sendView_tcpPutPkt env io flags seq io.conn.rcvNxt []
    refine ⟨?_, new ++ [p], ?_, ?_⟩
    · rw [← number]
      exact congrArg SendView.sndUna view
    · rw [out, grown, List.append_assoc]
    · have nothing : carried una position p = none := by rw [carried, if_pos empty]
      rw [view, timing_tcpPutPkt, List.filterMap_append, List.filterMap_cons, nothing,
        List.filterMap_nil, List.append_nil]
      exact ok

theorem Reckons.put (env : TcpEnv) (flags : Flags)
    {seq : Word} (ack : Word) {data : List UInt8}
    (within : (seq - una).toNat + data.length ≤ io.conn.inFlight.toNat) :
    ∃ new, (tcpPutPkt env io flags seq ack data).1.wire = wire ++ new ∧
      Reckoned position (sent ++ new.filterMap (carried una position)) io.conn.sendView
        { io.conn.timing with again := true } := by
  obtain ⟨number, new, grown, ok⟩ := inv
  rcases tcpPutPkt_appends env io flags seq ack data with ⟨-, same⟩ | ⟨-, p, out, place, bytes⟩
  · exact ⟨new, by rw [same, grown], ok.again⟩
  · refine ⟨new ++ [p], by rw [out, grown, List.append_assoc], ?_⟩
    rw [List.filterMap_append, ← List.append_assoc, List.filterMap_cons, List.filterMap_nil]
    by_cases empty : p.data = []
    · rw [carried, if_pos empty, List.append_nil]
      exact ok.again
    · rw [carried, if_neg empty]
      refine ok.resent ?_
      show position + (p.seq - una).toNat + p.data.length ≤ position + io.conn.inFlight.toNat
      rw [place, bytes]
      omega

theorem Reckons.resend (env : TcpEnv) (flags : Flags)
    {seq : Word} (ack : Word) {data : List UInt8}
    (within : (seq - una).toNat + data.length ≤ io.conn.inFlight.toNat) {f : TcpConn → TcpConn}
    {tx : Buffer TxSeg} (same : ∀ i, (tx i).span = (io.conn.tx i).span)
    (view : ∀ window, (f { io.conn with advWin := window }).sendView =
      { io.conn.sendView with tx := tx })
    (noted : ∀ window, (f { io.conn with advWin := window }).timing =
      { io.conn.timing with again := true }) :
    Reckons una position sent wire ((tcpPutPkt env io flags seq ack data).1.modify f) := by
  obtain ⟨new, grown, ok⟩ := inv.put env flags ack within
  obtain ⟨window, put⟩ := tcpPutPkt_conn env io flags seq ack data
  refine ⟨?_, new, grown, ?_⟩
  · rw [← inv.1, TcpIo.modify_conn, put]
    exact congrArg SendView.sndUna (view window)
  · rw [TcpIo.modify_conn, put, view, noted]
    exact ok.marks same

theorem Reckons.xmitOne (env : TcpEnv) (window : Word)
    {mss : Nat} (positive : 0 < mss) :
    Reckons una position sent wire (xmitOne env window mss io).1 := by
  simp only [CatOs.Tcp.xmitOne]
  split
  · exact inv
  rename_i guard
  obtain ⟨opened, unsent⟩ := not_or.mp guard
  obtain ⟨nonzero, fits, -⟩ := nextSegmentLen_bounds positive (BitVec.not_le.mp opened)
    (Nat.not_le.mp unsent)
  generalize nextSegmentLen io.conn window mss = n at nonzero fits
  have view := sendView_tcpPutPkt env io (tcpFlagAck ||| tcpFlagPsh) io.conn.sndNxt
    io.conn.rcvNxt (io.conn.snd.sndb.read io.conn.inFlight.toNat n)
  have timing := timing_tcpPutPkt env io (tcpFlagAck ||| tcpFlagPsh) io.conn.sndNxt
    io.conn.rcvNxt (io.conn.snd.sndb.read io.conn.inFlight.toNat n)
  rcases tcpPutPkt_appends env io (tcpFlagAck ||| tcpFlagPsh) io.conn.sndNxt io.conn.rcvNxt
    (io.conn.snd.sndb.read io.conn.inFlight.toNat n) with ⟨failed, -⟩ | ⟨done, p, out, place, bytes⟩
  · rw [if_neg (by rw [failed]; decide)]
    exact inv.unsent failed
  rw [if_pos done]
  obtain ⟨number, new, grown, ok⟩ := inv
  generalize (tcpPutPkt env io (tcpFlagAck ||| tcpFlagPsh) io.conn.sndNxt io.conn.rcvNxt
    (io.conn.snd.sndb.read io.conn.inFlight.toNat n)).1 = put at view timing out
  have flight : put.conn.inFlight = io.conn.inFlight :=
    congrArg (fun v : SendView => v.sndNxt - v.sndUna) view
  have used : put.conn.snd = io.conn.snd := congrArg SendView.snd view
  rw [← view, ← timing] at ok
  have sent' := ok.sendNew env.ticks nonzero (by rw [flight, used]; exact fits)
  refine ⟨?_, new ++ [p], ?_, ?_⟩
  · have noted := congrArg SendView.sndUna (sendView_noteSent env.ticks n put.conn)
    rw [← number]
    exact noted.trans (congrArg SendView.sndUna view)
  · show put.wire = _
    rw [out, grown, List.append_assoc]
  · have length : p.data.length = n := by rw [bytes, Buffer.length_read]
    have nonempty : p.data ≠ [] := by
      intro empty
      rw [empty] at length
      simp only [List.length_nil] at length
      omega
    have stretch : carried una position p = some ⟨position + put.conn.inFlight.toNat, n⟩ := by
      rw [carried, if_neg nonempty, place, length, ← number, flight]
      rfl
    rw [List.filterMap_append, ← List.append_assoc, List.filterMap_cons, stretch,
      List.filterMap_nil]
    exact sent'

theorem Reckons.retransmitEntry (env : TcpEnv) {i : Nat}
    (within : i < io.conn.txN) (done : Bool) :
    Reckons una position sent wire (retransmitEntry env i (io, done)).1 := by
  simp only [CatOs.Tcp.retransmitEntry]
  split
  · exact inv
  have covered : ((io.conn.tx i).seq - una).toNat +
      (io.conn.snd.sndb.read ((io.conn.tx i).seq - io.conn.sndUna).toNat
        (io.conn.tx i).len).length ≤ io.conn.inFlight.toNat := by
    obtain ⟨number, new, -, ok⟩ := inv
    rw [Buffer.length_read, ← number]
    exact ok.flight.entries _ (Buffer.mem_read.mpr ⟨i, within, by rw [Nat.zero_add]; rfl⟩)
  split
  · exact inv.resend env _ _ covered (span_update_retransmitted io.conn.tx i) (fun _ => rfl)
      fun _ => rfl
  · rename_i failed
    exact inv.unsent (by simpa using failed)

end Reckons

end Sending

section Acknowledging

variable {una : Word} {position : Nat} {sent : List Stretch} {wire : List TcpOut} {io : TcpIo}

def Follows (position : Nat) (sent : List Stretch) (io next : TcpIo) : Prop :=
  Reckons next.conn.sndUna (position + (next.conn.sndUna - io.conn.sndUna).toNat) sent io.wire next

theorem Reckons.follows {next : TcpIo}
    (inv : Reckons una (position + (una - io.conn.sndUna).toNat) sent io.wire next) :
    Follows position sent io next := by
  unfold Follows
  rw [inv.1]
  exact inv

theorem Reckoned.follows (ok : Reckoned position sent io.conn.sendView io.conn.timing) :
    Follows position sent io io := by
  refine ⟨rfl, [], (List.append_nil _).symm, ?_⟩
  rw [BitVec.sub_self, BitVec.toNat_zero, Nat.add_zero, List.filterMap_nil, List.append_nil]
  exact ok

/-- The sender's work carries the history on. -/
theorem Follows.send {env : TcpEnv} {start next : TcpIo} {third : Prop}
    (inv : Follows position sent start io) (step : SendStep env start third io next) :
    Follows position sent start next := by
  have held : Reckons io.conn.sndUna _ sent start.wire io := inv
  cases step with
  | control f same =>
    exact (held.modify (eq_of_erased same TcpConn.sendView fun _ => rfl)
      (eq_of_erased same TcpConn.timing fun _ => rfl)).follows
  | marks =>
    obtain ⟨number, new, grown, ok⟩ := held
    exact Reckons.follows ⟨number, new, grown, ok.marks (tcpTxSack_span io.conn)⟩
  | answer seq plain => exact (held.tcpPutCtl env _ seq).follows
  | xmit window => exact (held.xmitOne env window (effMss_bounds io.conn).1).follows
  | entry done within short => exact (held.retransmitEntry env within done).follows
  | resend due snd flight =>
    apply Reckons.follows
    obtain ⟨len, choosing⟩ : ∃ len, (if io.conn.inFlight.toNat > tcpMss then tcpMss
      else io.conn.inFlight.toNat) = len := ⟨_, rfl⟩
    have within : (io.conn.sndUna - io.conn.sndUna).toNat +
        (io.conn.snd.sndb.read 0 len).length ≤ io.conn.inFlight.toNat := by
      rw [BitVec.sub_self, BitVec.toNat_zero, Buffer.length_read]
      split at choosing <;> omega
    simp only [resendFirst, choosing]
    split
    · exact held.resend env _ _ within (fun _ => rfl) (fun _ => rfl) fun _ => rfl
    · rename_i failed
      exact (held.unsent (by simpa using failed)).modify rfl rfl
  | queue data opened =>
    obtain ⟨number, new, grown, ok⟩ := held
    exact Reckons.follows ⟨number, new, grown, ok.queue (Nat.le_add_right _ _)⟩
  | @acked ack number quiet after upTo =>
    -- Nothing was sent yet, so that the history is the one of the start.
    obtain ⟨-, new, grown, ok⟩ := held
    have none : new = [] := by
      rw [quiet] at grown
      exact List.append_right_eq_self.mp grown.symm
    rw [none, List.filterMap_nil, List.append_nil, number, BitVec.sub_self, BitVec.toNat_zero,
      Nat.add_zero] at ok
    have moved : (io.modify (tcpAckAdvance env.ticks ack)).conn.sndUna = ack :=
      congrArg SendView.sndUna (sendView_tcpAckAdvance env.ticks ack io.conn)
    have advanced := ok.acknowledge env.ticks after upTo
    rw [number] at advanced
    refine Reckons.follows ⟨moved, [], by rw [List.append_nil]; exact quiet, ?_⟩
    rw [List.filterMap_nil, List.append_nil]
    exact advanced

theorem Follows.sends {env : TcpEnv} {start next : TcpIo} {third : Prop}
    (inv : Follows position sent start io) (steps : SendSteps env start third io next) :
    Follows position sent start next :=
  steps_keep steps (Follows position sent start) (fun _ _ step held => held.send step) inv

end Acknowledging

section Handling

variable {una : Word} {position : Nat} {sent : List Stretch} {wire : List TcpOut} {io : TcpIo}

theorem Reckons.tcpSendFin (inv : Reckons una position sent wire io) (env : TcpEnv)
    {next : TcpState} (opened : io.conn.state.unclosed = true) (closing : next.unclosed = false) :
    Reckons una position sent wire (tcpSendFin env next io) := by
  have put := inv.tcpPutCtl env tcpFlagFinack io.conn.sndNxt
  have state := state_tcpPutCtl env io tcpFlagFinack io.conn.sndNxt
  obtain ⟨number, new, grown, ok⟩ := put
  refine ⟨number, new, grown, ?_⟩
  exact ok.close (by rw [← opened, ← state]; rfl) closing

theorem Reckons.step {env : TcpEnv} {s : TcpIn} {next : TcpIo}
    (inv : Reckons una position sent wire io) (step : StateStep env s io next) :
    Reckons una position sent wire next := by
  cases step with
  | answer => exact inv.tcpPutCtl env _ _
  | data =>
    have taken := eraseReceive_tcpAcceptData io.conn s.seq s.data
    exact inv.modify (eq_of_erased taken TcpConn.sendView fun _ => rfl)
      (eq_of_erased taken TcpConn.timing fun _ => rfl)
  | count => exact inv.modify rfl rfl
  | opens waiting => exact inv.setState .established rfl rfl fun _ => by rw [waiting]; rfl
  | half closed => exact inv.setState .finWait2 rfl rfl Bool.noConfusion
  | both closed => exact inv.setState .closing rfl rfl Bool.noConfusion
  | waits closed => exact inv.setState .timeWait rfl rfl Bool.noConfusion
  | closes opened =>
    exact (inv.setState .closeWait rfl rfl fun _ => by rw [opened]; rfl).tcpSendFin env rfl rfl
  | ends last => exact inv.setState .closed rfl rfl Bool.noConfusion

theorem Reckons.releaseConn (inv : Reckons una position sent wire io) :
    Reckons una position sent wire (io.modify releaseConn) :=
  inv.setState .closed rfl rfl fun opened => Bool.noConfusion opened

theorem Reckoned.tcpSegment (ok : Reckoned position sent io.conn.sendView io.conn.timing)
    (env : TcpEnv) (s : TcpIn) : Follows position sent io (tcpSegment env s io) := by
  have started : Reckons io.conn.sndUna _ sent io.wire io := ok.follows
  simp only [CatOs.Tcp.tcpSegment]
  split
  · exact started.follows
  split
  · exact started.releaseConn.follows
  simp only [tcpHandleConn]
  split
  · exact ((started.tcpPutCtl env _ _).modify rfl rfl).follows
  split
  · simp only [tcpHandleRst]
    split
    · exact (started.tcpPutCtl env _ _).follows
    split
    · exact (started.setState .closed rfl rfl fun opened => Bool.noConfusion opened).follows
    · exact started.follows
  · have acked := ok.follows.sends (@sends_acknowledge env io s)
    exact (steps_keep (steps_tcpHandleState env s _) (Reckons _ _ sent io.wire)
      (fun _ _ step held => held.step step) acked).follows

end Handling

section Operations

variable {una : Word} {position : Nat} {sent : List Stretch} {wire : List TcpOut} {io : TcpIo}

theorem Reckons.tcpRecv (inv : Reckons una position sent wire io) (env : TcpEnv) (maxLen : Nat) :
    Reckons una position sent wire (tcpRecv env io maxLen).1 :=
  tcpRecv_keeps (Reckons una position sent wire) inv (fun _ => inv)
    (fun _ taken => taken.tcpPutCtl env _ _) maxLen

theorem Reckons.tcpClose (inv : Reckons una position sent wire io) (env : TcpEnv) :
    Reckons una position sent wire (tcpClose env io) := by
  simp only [CatOs.Tcp.tcpClose]
  refine Reckons.modify ?_ rfl rfl
  split
  · rename_i established
    exact inv.tcpSendFin env (by rw [established]; rfl) rfl
  split
  · rename_i half
    exact inv.tcpSendFin env (by rw [half]; rfl) rfl
  · exact inv

theorem Follows.tcpTestTick {start : TcpIo} (inv : Follows position sent start io) (env : TcpEnv) :
    Follows position sent start (tcpTestTick env io) := by
  simp only [CatOs.Tcp.tcpTestTick]
  split
  · split
    · obtain ⟨after, held, same⟩ := tcpTestSend_keeps (Follows position sent start)
        (fun next data earlier => earlier.sends (@sends_tcpSend env start False next data)) inv
      rw [same]
      exact (Reckons.modify held rfl rfl).follows
    split
    · exact ((Reckons.tcpClose inv env).modify rfl rfl).follows
    · exact inv
  · exact inv

theorem Reckons.tcpPersistTick (inv : Reckons una position sent wire io) (env : TcpEnv)
    (probes : expired env.ticks io.conn.persistDeadline = true → io.conn.peerWin = 0 →
      io.conn.inFlight.toNat < io.conn.snd.sndUsed → env.outcome io.calls = .sent →
      io.conn.inFlight ≠ 0) :
    Reckons una position sent wire (tcpPersistTick env io) := by
  simp only [CatOs.Tcp.tcpPersistTick]
  split
  · exact inv
  rename_i due
  split
  · exact inv.modify rfl rfl
  rename_i shut
  simp only [not_or, not_not, Nat.not_le] at shut
  have due : expired env.ticks io.conn.persistDeadline = true := by simpa using due
  by_cases goes : env.outcome io.calls = .sent
  · have flight := probes due shut.1 shut.2 goes
    have positive : 0 < io.conn.inFlight.toNat := by
      apply Nat.pos_of_ne_zero
      intro zero
      exact flight (BitVec.eq_of_toNat_eq zero)
    refine inv.resend env _ _ ?_ (fun _ => rfl) (fun _ => rfl) fun _ => rfl
    rw [inv.1, BitVec.sub_self, BitVec.toNat_zero, Buffer.length_read]
    omega
  · -- A probe that does not go out is noted all the same.
    have failed := inv.unsent ((tcpPutPkt_outcome (tcpFlagAck ||| tcpFlagPsh) io.conn.sndUna
      io.conn.rcvNxt (io.conn.snd.sndb.read 0 1)).trans (decide_eq_false goes))
    obtain ⟨number, new, grown, ok⟩ := failed
    exact ⟨number, new, grown, ok.again⟩

theorem Reckons.tcpRtoData (inv : Reckons una position sent wire io) (env : TcpEnv) :
    Reckons una position sent wire (tcpRtoData env io) := by
  obtain ⟨len, choosing⟩ : ∃ len, (if io.conn.inFlight.toNat > io.conn.snd.sndUsed then
    io.conn.snd.sndUsed else io.conn.inFlight.toNat) = len := ⟨_, rfl⟩
  have view := sendView_noteTimeout len io.conn
  have timing : (noteTimeout len io.conn).timing = { io.conn.timing with again := true } := rfl
  have noted : Reckons una position sent wire (io.modify (noteTimeout len)) := by
    obtain ⟨number, new, grown, ok⟩ := inv
    refine ⟨?_, new, grown, ?_⟩
    · rw [← number]
      exact congrArg SendView.sndUna view
    · rw [TcpIo.modify_conn, view, timing]
      exact ok.again.marks (tcpTxClearMarks_span io.conn)
  have flight : (io.modify (noteTimeout len)).conn.inFlight = io.conn.inFlight :=
    congrArg (fun v : SendView => v.sndNxt - v.sndUna) view
  simp only [CatOs.Tcp.tcpRtoData, choosing]
  refine noted.resend env _ _ ?_ (fun _ => rfl) (fun _ => rfl) fun _ => rfl
  rw [inv.1, BitVec.sub_self, BitVec.toNat_zero, Buffer.length_read, flight]
  split at choosing <;> omega

theorem Reckons.tcpRtoTick (inv : Reckons una position sent wire io) (env : TcpEnv) :
    Reckons una position sent wire (tcpRtoTick env io) := by
  simp only [CatOs.Tcp.tcpRtoTick]
  generalize (if io.conn.state = .synReceived then tcpRtoRetrySynrcvd else tcpRtoRetryData) = limit
  split
  · exact inv
  split
  · exact inv.releaseConn
  split
  · exact (inv.tcpPutCtl env _ _).modify rfl rfl
  split
  · exact (inv.tcpPutCtl env _ _).modify rfl rfl
  split
  · exact inv.tcpRtoData env
  · exact inv.modify rfl rfl

theorem Reckoned.tcpStep (ok : Reckoned position sent io.conn.sendView io.conn.timing)
    (input : TcpEnv × TcpOp) (probes : ProbesInFlight input io) :
    Follows position sent io (tcpStep input io) := by
  have started : Reckons io.conn.sndUna _ sent io.wire io := ok.follows
  obtain ⟨env, op⟩ := input
  cases op with
  | send data => exact ok.follows.sends (@sends_tcpSend env io False io data)
  | recv maxLen => exact (started.tcpRecv env maxLen).follows
  | segment s => exact ok.tcpSegment env s
  | close => exact (started.tcpClose env).follows
  | tick =>
    show Follows position sent io (tcpTickConn env io)
    simp only [tcpTickConn]
    split
    · exact started.follows
    rename_i used
    split
    · split
      · exact (started.setState .closed rfl rfl fun opened => Bool.noConfusion opened).follows
      · exact started.follows
    rename_i running
    have tested : Reckons _ _ sent io.wire _ := ok.follows.tcpTestTick env
    exact ((tested.tcpPersistTick env (probes rfl (by simpa using used) running)).tcpRtoTick
      env).follows

theorem Reckoned.step {h : History}
    (ok : Reckoned h.acked h.sent h.io.conn.sendView h.io.conn.timing)
    (input : TcpEnv × TcpOp) (probes : ProbesInFlight input h.io) :
    Reckoned (h.step input).acked (h.step input).sent (h.step input).io.conn.sendView
      (h.step input).io.conn.timing := by
  obtain ⟨-, new, grown, next⟩ := ok.tcpStep input probes
  have appended : (CatOs.Tcp.tcpStep input h.io).wire.drop h.io.wire.length = new := by
    rw [grown, List.drop_left]
  simp only [History.step, appended]
  exact next

end Operations

theorem reckoned_tcpSynAccept (env : TcpEnv) (s : TcpIn) (srcIp isn : Word) (c : TcpConn) :
    Reckoned 0 [] (tcpSynAccept env s srcIp isn c).conn.sendView
      (tcpSynAccept env s srcIp isn c).conn.timing := by
  obtain ⟨_, _, _, claimed⟩ := initSynConn_fields c s srcIp isn
  obtain ⟨_, conn⟩ := tcpSynAccept_conn c env s srcIp isn
  have view : (tcpSynAccept env s srcIp isn c).conn.sendView = _ :=
    (congrArg TcpConn.sendView conn).trans (sendView_initSynConn s srcIp isn c)
  have timing : (tcpSynAccept env s srcIp isn c).conn.timing.pending = false := by
    rw [conn, claimed]
    rfl
  have flight : (tcpSynAccept env s srcIp isn c).conn.sendView.flight = 0 := by
    rw [view]
    simp [SendView.flight]
  refine { flight := { bounded := ?_, few := ?_, entries := ?_ }, past := ?_, timed := ?_
           once := ?_ }
  · rw [flight]
    exact Nat.zero_le _
  · rw [view]
    exact Nat.zero_le _
  · rw [view]
    intro seg member
    exact absurd member List.not_mem_nil
  · intro stretch member
    exact absurd member List.not_mem_nil
  · intro pending
    exact Bool.noConfusion (timing.symm.trans pending)
  · intro pending
    exact Bool.noConfusion (timing.symm.trans pending)

end CatOs.Tcp
