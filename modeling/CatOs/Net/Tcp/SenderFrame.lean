import CatOs.Net.Tcp.Frames
import CatOs.Net.Tcp.SendStream

/-! The bookkeeping of the sender, and the operations that change nothing else of a connection. -/

namespace CatOs.Tcp

def TcpConn.eraseBooks (c : TcpConn) : TcpConn :=
  { c with
    peerWin := 0
    sackLeft := zeroConn.sackLeft
    sackRight := zeroConn.sackRight
    sackN := 0
    snd := zeroConn.snd
    sndNxt := 0
    sndUna := 0
    tx := zeroConn.tx
    txN := 0
    rtoDeadline := 0
    rtoBackoff := noBackoff
    rtoAttempts := 0
    rtoTicks := 0
    rttStamp := 0
    rttSeq := 0
    srttTicks := 0
    rttvarTicks := 0
    rttPending := false
    rttRetransmitted := false
    cwnd := 0
    ssthresh := 0
    dupacks := 0
    fastRecovery := false
    recoverSeq := 0
    persistDeadline := 0
    persistBackoff := noBackoff }

def TcpConn.eraseSender (c : TcpConn) : TcpConn :=
  { c with
    peerWin := 0
    advWin := 0
    sackLeft := zeroConn.sackLeft
    sackRight := zeroConn.sackRight
    sackN := 0
    snd := zeroConn.snd
    sndNxt := 0
    sndUna := 0
    tx := zeroConn.tx
    txN := 0
    rtoDeadline := 0
    rtoBackoff := noBackoff
    rtoAttempts := 0
    rtoTicks := 0
    rttStamp := 0
    rttSeq := 0
    srttTicks := 0
    rttvarTicks := 0
    rttPending := false
    rttRetransmitted := false
    cwnd := 0
    ssthresh := 0
    dupacks := 0
    fastRecovery := false
    recoverSeq := 0
    persistDeadline := 0
    persistBackoff := noBackoff }

section Bookkeeping

variable (c : TcpConn) (ticks : Word)

theorem eraseBooks_noteSent (n : Nat) : (noteSent ticks n c).eraseBooks = c.eraseBooks := by
  obtain ⟨_, noted⟩ := noteSent_fields ticks c n
  rw [noted]
  rfl

theorem eraseBooks_noteTimeout (inFlight : Nat) :
    (noteTimeout inFlight c).eraseBooks = c.eraseBooks := by
  have marked : ∀ d : TcpConn,
      TcpConn.eraseBooks { d with rttRetransmitted := true } = d.eraseBooks := fun _ => rfl
  have shrunk : ∀ ssthresh (d : TcpConn), (shrinkWindow ssthresh d).eraseBooks = d.eraseBooks :=
    fun _ _ => rfl
  have cleared : (tcpTxClearMarks c).eraseBooks = c.eraseBooks := rfl
  simp only [noteTimeout, marked, tcpLossWindow, shrunk, cleared]

theorem eraseBooks_tcpAckAdvance (ack : Word) :
    (tcpAckAdvance ticks ack c).eraseBooks = c.eraseBooks := by
  obtain ⟨_, _, _, _, _, advanced⟩ := tcpAckAdvance_fields ticks c ack
  rw [advanced]
  rfl

end Bookkeeping

theorem eraseSender_of_eraseBooks {c d : TcpConn} (same : c.eraseBooks = d.eraseBooks) :
    c.eraseSender = d.eraseSender := by
  have erased : ∀ e : TcpConn, e.eraseSender = { e.eraseBooks with advWin := 0 } := fun _ => rfl
  rw [erased, erased, same]

def TcpConn.eraseControl (c : TcpConn) : TcpConn :=
  { c with
    peerWin := 0
    sackLeft := zeroConn.sackLeft
    sackRight := zeroConn.sackRight
    sackN := 0
    rtoDeadline := 0
    rtoBackoff := noBackoff
    rtoAttempts := 0
    cwnd := 0
    ssthresh := 0
    dupacks := 0
    fastRecovery := false
    recoverSeq := 0
    persistDeadline := 0
    persistBackoff := noBackoff }

theorem eq_of_erased {γ : Type*} {erase : TcpConn → TcpConn} {c d : TcpConn}
    (same : erase c = erase d) (view : TcpConn → γ) (blind : ∀ c, view c = view (erase c)) :
    view c = view d := by
  rw [blind c, same, ← blind d]

section Control

variable (c : TcpConn) (ticks : Word)

theorem eraseControl_setCwnd (cwnd : Word) : (setCwnd cwnd c).eraseControl = c.eraseControl := rfl

theorem eraseControl_tcpPersistArm : (tcpPersistArm ticks c).eraseControl = c.eraseControl := by
  unfold tcpPersistArm
  split <;> rfl

theorem eraseControl_tcpHandleWindow (s : TcpIn) :
    (tcpHandleWindow ticks s c).eraseControl = c.eraseControl := by
  obtain ⟨_, _, _, _, _, handled⟩ := tcpHandleWindow_fields ticks c s
  rw [handled]
  rfl

theorem eraseControl_enterRecovery (inFlight : Word) :
    (enterRecovery inFlight c).eraseControl = c.eraseControl := by
  have recovering : ∀ cwnd ssthresh, (startRecovery cwnd (shrinkWindow ssthresh c)).eraseControl =
      c.eraseControl := fun _ _ => rfl
  exact recovering _ _

theorem eraseControl_tcpAckTimer : (tcpAckTimer ticks c).eraseControl = c.eraseControl := by
  unfold tcpAckTimer
  split
  · rfl
  split <;> rfl

end Control

theorem eraseSender_tcpHandleWindow (c : TcpConn) (ticks : Word) (s : TcpIn) :
    (tcpHandleWindow ticks s c).eraseSender = c.eraseSender :=
  eq_of_erased (eraseControl_tcpHandleWindow c ticks s) TcpConn.eraseSender fun _ => rfl

def resendFirst (env : TcpEnv) (io : TcpIo) : TcpIo :=
  let c := io.conn
  let len := if c.inFlight.toNat > tcpMss then tcpMss else c.inFlight.toNat
  let (io, ok) := tcpPutPkt env io (tcpFlagAck ||| tcpFlagPsh) c.sndUna c.rcvNxt
    (c.snd.sndb.read 0 len)
  if ok then io.modify fun c => tcpRtoRearm env.ticks { c with rttRetransmitted := true }
  else io.modify fun c => tcpRtoRearm env.ticks { c with fastRecovery := false }

def queueBytes (io : TcpIo) (data : List UInt8) : TcpIo :=
  { io with
    conn := queueSnd io.conn (data.take (sendLen io.conn data.length)) (sendLen_fits io.conn data)
    accepted := io.accepted ++ data.take (sendLen io.conn data.length) }

/--
One piece of the sender's work, on the way from a given start.

The oldest bytes are resent only after a given condition, which says what the third duplicate
acknowledgement looks like.
-/
inductive SendStep (env : TcpEnv) (start : TcpIo) (third : Prop) : TcpIo → TcpIo → Prop
  /-- Timers, congestion window and what the peer reports are updated. -/
  | control {io : TcpIo} (f : TcpConn → TcpConn)
      (same : (f io.conn).eraseControl = io.conn.eraseControl) :
      SendStep env start third io (io.modify f)
  /-- Reported blocks are marked on the scoreboard. -/
  | marks {io : TcpIo} : SendStep env start third io (io.modify tcpTxSack)
  /-- An acknowledgement or the reply to a connection request goes out. -/
  | answer {io : TcpIo} {flags : Flags} (seq : Word)
      (plain : flags = tcpFlagAck ∨ flags = tcpFlagSynack) :
      SendStep env start third io (tcpPutCtl env io flags seq)
  /-- New data goes out. -/
  | xmit {io : TcpIo} (window : Word) :
      SendStep env start third io (xmitOne env window (effMss io.conn) io).1
  /-- An entry of the scoreboard goes out again. -/
  | entry {io : TcpIo} {i : Nat} (done : Bool) (within : i < io.conn.txN)
      (short : ∀ limit, EntriesFit limit start.conn → (io.conn.tx i).len ≤ limit) :
      SendStep env start third io (retransmitEntry env i (io, done)).1
  /-- The oldest bytes in flight go out again. -/
  | resend {io : TcpIo} (due : third) (snd : io.conn.snd = start.conn.snd)
      (flight : io.conn.inFlight = start.conn.inFlight) :
      SendStep env start third io (resendFirst env io)
  /-- The application's bytes are queued. -/
  | queue {io : TcpIo} (data : List UInt8) (opened : io.conn.state = .established) :
      SendStep env start third io (queueBytes io data)
  /-- The send window moves on to an acknowledgement. -/
  | acked {io : TcpIo} {ack : Word} (number : io.conn.sndUna = start.conn.sndUna)
      (quiet : io.wire = start.wire) (after : tcpSeqAfter ack io.conn.sndUna = true)
      (upTo : tcpSeqAfter ack io.conn.sndNxt = false) :
      SendStep env start third io (io.modify (tcpAckAdvance env.ticks ack))

abbrev SendSteps (env : TcpEnv) (start : TcpIo) (third : Prop) : TcpIo → TcpIo → Prop :=
  Relation.ReflTransGen (SendStep env start third)

structure Resending where
  snd : TcpSnd
  inFlight : Word
  sndUna : Word
  txN : Nat
  spans : Nat → Word × Nat × Bool

def TcpConn.resending (c : TcpConn) : Resending :=
  { snd := c.snd, inFlight := c.inFlight, sndUna := c.sndUna, txN := c.txN
    spans := fun i => (c.tx i).span }

theorem resending_noteRetransmitted (ticks : Word) (i : Nat) (c : TcpConn) :
    (noteRetransmitted ticks i c).resending = c.resending :=
  congrArg (fun spans => { c.resending with spans := spans })
    (funext (span_update_retransmitted c.tx i))

theorem resending_tcpTxSack (c : TcpConn) : (tcpTxSack c).resending = c.resending :=
  congrArg (fun spans => { c.resending with spans := spans }) (funext (tcpTxSack_span c))

theorem EntriesFit.resending {limit : Nat} {c d : TcpConn} (fit : EntriesFit limit c)
    (same : d.resending = c.resending) : EntriesFit limit d :=
  fit.marks (congrArg Resending.txN same) (congrFun (congrArg Resending.spans same))

section Steps

variable {env : TcpEnv} {start : TcpIo} {third : Prop} (io : TcpIo)

theorem sends_tcpXmitPending : SendSteps env start third io (tcpXmitPending env io) := by
  simp only [tcpXmitPending]
  split
  · split
    · exact .single (.control _ (eraseControl_tcpPersistArm io.conn env.ticks))
    · exact .refl
  · -- The segment size is the same in every pass of the loop.
    have loop := @doWhile_invariant _ (xmitOne env (sendWin io.conn) (effMss io.conn))
      (fun current => SendSteps env start third io current ∧
        effMss current.conn = effMss io.conn) ?_ (tcpBufSize + 1) io ⟨.refl, rfl⟩
    · exact loop.1
    · intro current earlier
      obtain ⟨steps, size⟩ := earlier
      have kept : ∀ n c, effMss (noteSent env.ticks n c) = effMss c := by
        intro n c
        have same := congrArg effMss (eraseBooks_noteSent c env.ticks n)
        exact same
      rw [← size]
      exact ⟨steps.tail (.xmit _), xmitOne_frame env current effMss (fun _ _ => rfl) kept _ _⟩

theorem sends_sackRetransmit
    (short : ∀ limit, EntriesFit limit start.conn → EntriesFit limit io.conn) :
    SendSteps env start third io (sackRetransmit env io).1 := by
  unfold sackRetransmit
  split
  · -- Only marks change, so every index of the loop stays within entries of the same lengths.
    have loop := @forRange_invariant _ io.conn.txN (retransmitEntry env) (io, false)
      (fun _ (state : TcpIo × Bool) => SendSteps env start third io state.1 ∧
        state.1.conn.resending = io.conn.resending) ⟨.refl, rfl⟩ ?_
    · exact loop.1
    · intro i state within earlier
      obtain ⟨steps, kept⟩ := earlier
      have count : state.1.conn.txN = io.conn.txN := congrArg Resending.txN kept
      have there : i < state.1.conn.txN := by
        rw [count]
        exact within
      refine ⟨steps.tail (.entry state.2 there fun limit fit => ?_), ?_⟩
      · exact (short limit fit).resending kept i there
      · rw [← kept]
        exact retransmitEntry_frame env state.1 TcpConn.resending (fun _ _ => rfl)
          (resending_noteRetransmitted env.ticks) i state.2
  · exact .refl

theorem resending_sackRetransmit :
    (sackRetransmit env io).1.conn.resending = io.conn.resending :=
  sackRetransmit_frame env io TcpConn.resending (fun _ _ => rfl)
    (resending_noteRetransmitted env.ticks)

theorem sends_tcpFastRetransmit {inFlight : Word} (due : third)
    (same : io.conn.resending = start.conn.resending) (number : inFlight = io.conn.inFlight)
    (sackRetx : Bool) :
    SendSteps env start third io (tcpFastRetransmit env inFlight sackRetx io) := by
  have entered : SendSteps env start third io (io.modify (enterRecovery inFlight)) :=
    .single (.control _ (eraseControl_enterRecovery io.conn inFlight))
  have entering : (io.modify (enterRecovery inFlight)).conn.resending = io.conn.resending :=
    eq_of_erased (eraseControl_enterRecovery io.conn inFlight) TcpConn.resending fun _ => rfl
  simp only [tcpFastRetransmit]
  obtain ⟨tried, trying⟩ : ∃ tried, (if sackRetx then (io.modify (enterRecovery inFlight), true)
      else sackRetransmit env (io.modify (enterRecovery inFlight))) = tried := ⟨_, rfl⟩
  have before : SendSteps env start third io tried.1 ∧
      tried.1.conn.resending = io.conn.resending := by
    rw [← trying]
    split
    · exact ⟨entered, entering⟩
    · exact ⟨entered.trans (sends_sackRetransmit _ fun _ fit => fit.resending (entering.trans same)),
        (resending_sackRetransmit _).trans entering⟩
  obtain ⟨steps, kept⟩ := before
  rw [trying]
  split
  · exact steps
  · have flight : tried.1.conn.inFlight = io.conn.inFlight := congrArg Resending.inFlight kept
    rw [number, ← flight]
    exact steps.tail (.resend due (congrArg Resending.snd (kept.trans same))
      (congrArg Resending.inFlight (kept.trans same)))

theorem sends_tcpHandleDupAck (due : io.conn.dupacks = 2 → third)
    (same : io.conn.resending = start.conn.resending) :
    SendSteps env start third io (tcpHandleDupAck env io.conn.inFlight io) := by
  have tried : SendSteps env start third io (sackRetransmit env (io.modify countDupAck)).1 :=
    .head (.control countDupAck rfl) (sends_sackRetransmit _ fun _ fit => fit.resending same)
  have kept : (sackRetransmit env (io.modify countDupAck)).1.conn.resending = io.conn.resending :=
    resending_sackRetransmit _
  have count : (sackRetransmit env (io.modify countDupAck)).1.conn.dupacks = io.conn.dupacks + 1 :=
    sackRetransmit_frame env _ TcpConn.dupacks (fun _ _ => rfl) fun _ _ => rfl
  simp only [tcpHandleDupAck]
  split
  · rename_i three
    have second : io.conn.dupacks = 2 := by
      rw [count] at three
      exact add_right_cancel (b := 1) three
    exact tried.trans (sends_tcpFastRetransmit _ (due second) (kept.trans same)
      (congrArg Resending.inFlight kept).symm _)
  split
  · exact (tried.tail (.control inflateCwnd (eraseControl_setCwnd ..))).trans (sends_tcpXmitPending _)
  · exact tried

theorem sends_tcpHandleNewAck {ack : Word} (same : io.conn.resending = start.conn.resending)
    (quiet : io.wire = start.wire) (after : tcpSeqAfter ack io.conn.sndUna = true)
    (upTo : tcpSeqAfter ack io.conn.sndNxt = false) :
    SendSteps env start third io (tcpHandleNewAck env ack io) := by
  have tried : SendSteps env start third io
      (sackRetransmit env (io.modify (tcpAckAdvance env.ticks ack))).1 :=
    .head (.acked (congrArg Resending.sndUna same) quiet after upTo)
      (sends_sackRetransmit _ fun _ fit => (fit.resending same).tcpAckAdvance env.ticks ack)
  have timed : ∀ later : TcpIo,
      SendStep env start third later (later.modify (tcpAckTimer env.ticks)) :=
    fun later => .control _ (eraseControl_tcpAckTimer later.conn env.ticks)
  simp only [tcpHandleNewAck]
  split
  · exact tried.tail (timed _)
  · exact (tried.trans (sends_tcpXmitPending _)).tail (timed _)

def ThirdAck (s : TcpIn) (oldWin : Half) (c : TcpConn) : Prop :=
  s.has tcpFlagAck = true ∧ s.ack = c.sndUna ∧ c.peerWin ≤ oldWin ∧ c.dupacks = 2

theorem sends_tcpHandleAck (s : TcpIn) (oldWin : Half)
    (same : io.conn.resending = start.conn.resending) (silent : io.wire = start.wire) :
    SendSteps env start (ThirdAck s oldWin io.conn) io (tcpHandleAck env s oldWin io) := by
  simp only [tcpHandleAck]
  split
  · exact .refl
  rename_i flagged
  -- Marking what was reported changes nothing that the branches look at.
  obtain ⟨marked, marking⟩ : ∃ marked,
      (if io.conn.sackN ≠ 0 then io.modify tcpTxSack else io) = marked := ⟨_, rfl⟩
  have before : SendSteps env start (ThirdAck s oldWin io.conn) io marked ∧
      marked.conn.resending = io.conn.resending ∧ marked.conn.peerWin = io.conn.peerWin ∧
      marked.conn.dupacks = io.conn.dupacks ∧ marked.wire = io.wire := by
    rw [← marking]
    split
    · exact ⟨.single .marks, resending_tcpTxSack io.conn, rfl, rfl, rfl⟩
    · exact ⟨.refl, rfl, rfl, rfl, rfl⟩
  obtain ⟨steps, kept, window, count, quiet⟩ := before
  have flight : marked.conn.inFlight = io.conn.inFlight := congrArg Resending.inFlight kept
  have una : marked.conn.sndUna = io.conn.sndUna := congrArg Resending.sndUna kept
  rw [marking, ← flight]
  split
  · rename_i repeated
    refine steps.trans (sends_tcpHandleDupAck _ (fun second => ?_) (kept.trans same))
    exact ⟨by simpa using flagged, repeated.1.trans una, window ▸ repeated.2.2,
      count.symm.trans second⟩
  split
  · exact (steps.tail (.control (fun c => { c with dupacks := 0 }) rfl)).trans
      (sends_tcpXmitPending _)
  split
  · rename_i new
    exact steps.trans (sends_tcpHandleNewAck _ (kept.trans same) (quiet.trans silent) new.1
      (by simpa using new.2))
  · exact steps

theorem sends_acknowledge (s : TcpIn) :
    SendSteps env io (ThirdAck s io.conn.peerWin (tcpHandleWindow env.ticks s io.conn)) io
      (tcpHandleAck env s io.conn.peerWin (io.modify (tcpHandleWindow env.ticks s))) := by
  have control := eraseControl_tcpHandleWindow io.conn env.ticks s
  exact .head (.control _ control) (sends_tcpHandleAck (io.modify (tcpHandleWindow env.ticks s)) s
    io.conn.peerWin (eq_of_erased control TcpConn.resending fun _ => rfl) rfl)

theorem sends_tcpSend (data : List UInt8) :
    SendSteps env start third io (tcpSend env io data).1 := by
  simp only [tcpSend]
  split
  · exact .refl
  split
  · exact .refl
  rename_i opened
  split
  · exact .refl
  split
  · exact .refl
  · exact .head (.queue data (Decidable.not_not.mp opened)) (sends_tcpXmitPending _)

end Steps

def SentBy (c : TcpConn) (p : TcpOut) : Prop :=
  ∃ d flags seq data, d.eraseSender = c.eraseSender ∧
    p = buildSegment d flags seq d.rcvNxt data ∧ flags.has tcpFlagRst = false ∧
    flags.has tcpFlagAck = true

theorem SentBy.congr {c d : TcpConn} (same : c.eraseSender = d.eraseSender) {p : TcpOut}
    (sent : SentBy c p) : SentBy d p := by
  obtain ⟨e, flags, seq, data, agree, rest⟩ := sent
  exact ⟨e, flags, seq, data, agree.trans same, rest⟩

def lastWindow (sent : List TcpOut) (before : Half) : Half :=
  (sent.getLast?.map TcpOut.window).getD before

theorem lastWindow_append (first second : List TcpOut) (before : Half) :
    lastWindow (first ++ second) before = lastWindow second (lastWindow first before) := by
  unfold lastWindow
  rw [List.getLast?_append]
  cases second.getLast? <;> rfl

/--
One exchange comes from another by bookkeeping and sending.

Nothing else of the connection changes, and what it sends is built from it.
As long as every segment goes out, the last one carries the window that is remembered.
-/
structure Emits (env : TcpEnv) (io next : TcpIo) : Prop where
  side : next.conn.eraseSender = io.conn.eraseSender
  wire : ∃ sent, next.wire = io.wire ++ sent ∧ (∀ p ∈ sent, SentBy io.conn p) ∧
    ((∀ k, env.outcome k = .sent) → next.conn.advWin = lastWindow sent io.conn.advWin)

section Emits

variable {env : TcpEnv} {io next later : TcpIo}

theorem Emits.nothing : Emits env io io where
  side := rfl
  wire := ⟨[], (List.append_nil _).symm, fun _ none => absurd none List.not_mem_nil, fun _ => rfl⟩

theorem Emits.trans (first : Emits env io next) (second : Emits env next later) :
    Emits env io later := by
  obtain ⟨sent, wire, built, announced⟩ := first.wire
  obtain ⟨more, wire', built', announced'⟩ := second.wire
  refine ⟨second.side.trans first.side, sent ++ more, ?_, ?_, ?_⟩
  · rw [wire', wire, List.append_assoc]
  · intro p member
    rcases List.mem_append.mp member with early | late
    · exact built p early
    · exact (built' p late).congr first.side
  · intro success
    rw [announced' success, announced success, lastWindow_append]

theorem Emits.modify (f : TcpConn → TcpConn) (kept : (f io.conn).eraseBooks = io.conn.eraseBooks) :
    Emits env io (io.modify f) where
  side := eraseSender_of_eraseBooks kept
  wire := ⟨[], (List.append_nil _).symm, fun _ none => absurd none List.not_mem_nil,
    fun _ => (congrArg TcpConn.advWin kept : _)⟩

theorem Emits.put (flags : Flags) (seq : Word) (data : List UInt8)
    (quiet : flags.has tcpFlagRst = false) (acks : flags.has tcpFlagAck = true) :
    Emits env io (tcpPutPkt env io flags seq io.conn.rcvNxt data).1 := by
  have built : SentBy io.conn (buildSegment io.conn flags seq io.conn.rcvNxt data) :=
    ⟨io.conn, flags, seq, data, rfl, rfl, quiet, acks⟩
  simp only [tcpPutPkt]
  split
  · rename_i failed
    refine ⟨rfl, [], (List.append_nil _).symm, fun _ none => absurd none List.not_mem_nil, ?_⟩
    intro success
    rw [success] at failed
    cases failed
  split
  · refine ⟨rfl, [buildSegment io.conn flags seq io.conn.rcvNxt data], rfl, ?_, fun _ => rfl⟩
    intro p member
    rw [List.mem_singleton.mp member]
    exact built
  · rename_i refused
    refine ⟨rfl, [], (List.append_nil _).symm, fun _ none => absurd none List.not_mem_nil, ?_⟩
    intro success
    exact absurd (success _) refused

theorem Emits.data (seq : Word) (data : List UInt8) :
    Emits env io (tcpPutPkt env io (tcpFlagAck ||| tcpFlagPsh) seq io.conn.rcvNxt data).1 :=
  Emits.put _ seq data (by decide) (by decide)

theorem Emits.tcpPutCtl (flags : Flags) (seq : Word) (quiet : flags.has tcpFlagRst = false)
    (acks : flags.has tcpFlagAck = true) : Emits env io (tcpPutCtl env io flags seq) :=
  Emits.put flags seq [] quiet acks

end Emits

section Output

variable (env : TcpEnv) (io : TcpIo)

@[simp] theorem eraseSender_tcpPutPkt (flags : Flags) (seq ack : Word) (data : List UInt8) :
    (tcpPutPkt env io flags seq ack data).1.conn.eraseSender = io.conn.eraseSender := by
  obtain ⟨window, sent⟩ := tcpPutPkt_conn env io flags seq ack data
  rw [sent]
  rfl

@[simp] theorem eraseSender_tcpPutCtl (flags : Flags) (seq : Word) :
    (tcpPutCtl env io flags seq).conn.eraseSender = io.conn.eraseSender :=
  eraseSender_tcpPutPkt ..

/-- Every piece of the sender's work is bookkeeping and sending. -/
theorem SendStep.emits {start : TcpIo} {third : Prop} {next : TcpIo}
    (step : SendStep env start third io next) : Emits env io next := by
  cases step with
  | control f same => exact .modify f (eq_of_erased same TcpConn.eraseBooks fun _ => rfl)
  | marks => exact .modify _ rfl
  | answer seq plain =>
    rcases plain with rfl | rfl
    · exact .tcpPutCtl _ _ (by decide) (by decide)
    · exact .tcpPutCtl _ _ (by decide) (by decide)
  | xmit window =>
    simp only [xmitOne]
    split
    · exact .nothing
    have put := @Emits.data env io io.conn.sndNxt (io.conn.snd.sndb.read io.conn.inFlight.toNat
      (nextSegmentLen io.conn window (effMss io.conn)))
    split
    · exact put.trans (.modify _ (eraseBooks_noteSent ..))
    · exact put
  | @entry i done within short =>
    simp only [retransmitEntry]
    split
    · exact .nothing
    have put := @Emits.data env io (io.conn.tx i).seq (io.conn.snd.sndb.read
      ((io.conn.tx i).seq - io.conn.sndUna).toNat (io.conn.tx i).len)
    split
    · exact put.trans (.modify _ rfl)
    · exact put
  | resend due snd flight =>
    simp only [resendFirst]
    generalize (if io.conn.inFlight.toNat > tcpMss then tcpMss else io.conn.inFlight.toNat) = len
    have put := @Emits.data env io io.conn.sndUna (io.conn.snd.sndb.read 0 len)
    split
    · exact put.trans (.modify _ rfl)
    · exact put.trans (.modify _ rfl)
  | queue data opened =>
    exact ⟨rfl, [], (List.append_nil _).symm, fun _ none => absurd none List.not_mem_nil,
      fun _ => rfl⟩
  | acked number quiet after upTo => exact .modify _ (eraseBooks_tcpAckAdvance ..)

theorem SendSteps.emits {start : TcpIo} {third : Prop} {next : TcpIo}
    (steps : SendSteps env start third io next) : Emits env io next :=
  steps_keep steps (Emits env io) (fun _ _ step earlier => earlier.trans (step.emits _ _)) .nothing

theorem emits_tcpHandleAck (s : TcpIn) (oldWin : Half) :
    Emits env io (tcpHandleAck env s oldWin io) :=
  SendSteps.emits env io (@sends_tcpHandleAck env io io s oldWin rfl rfl)

theorem emits_tcpPersistTick : Emits env io (tcpPersistTick env io) := by
  simp only [tcpPersistTick]
  split
  · exact .nothing
  split
  · exact .modify _ rfl
  · exact Emits.trans (.data io.conn.sndUna (io.conn.snd.sndb.read 0 1)) (.modify _ rfl)

theorem emits_tcpRtoData : Emits env io (tcpRtoData env io) := by
  simp only [tcpRtoData]
  generalize (if io.conn.inFlight.toNat > io.conn.snd.sndUsed then io.conn.snd.sndUsed
    else io.conn.inFlight.toNat) = len
  have noted : Emits env io (io.modify (noteTimeout len)) :=
    .modify _ (eraseBooks_noteTimeout io.conn len)
  exact (noted.trans (.data io.conn.sndUna (io.conn.snd.sndb.read 0 len))).trans (.modify _ rfl)

theorem emits_tcpRtoTick :
    Emits env io (tcpRtoTick env io) ∨ tcpRtoTick env io = io.modify releaseConn := by
  simp only [tcpRtoTick]
  split
  · exact .inl .nothing
  generalize (if io.conn.state = .synReceived then tcpRtoRetrySynrcvd else tcpRtoRetryData) = r2
  split
  · exact .inr rfl
  left
  split
  · exact Emits.trans (.tcpPutCtl _ _ (by decide) (by decide)) (.modify _ rfl)
  split
  · exact Emits.trans (.tcpPutCtl _ _ (by decide) (by decide)) (.modify _ rfl)
  split
  · exact emits_tcpRtoData env io
  · exact .modify _ rfl

theorem emits_tcpSend (data : List UInt8) : Emits env io (tcpSend env io data).1 :=
  SendSteps.emits env io (@sends_tcpSend env io False io data)

@[simp] theorem eraseSender_tcpXmitPending :
    (tcpXmitPending env io).conn.eraseSender = io.conn.eraseSender :=
  (SendSteps.emits env io (@sends_tcpXmitPending env io False io)).side

@[simp] theorem eraseSender_tcpHandleAck (s : TcpIn) (oldWin : Half) :
    (tcpHandleAck env s oldWin io).conn.eraseSender = io.conn.eraseSender :=
  (emits_tcpHandleAck env io s oldWin).side

@[simp] theorem eraseSender_tcpPersistTick :
    (tcpPersistTick env io).conn.eraseSender = io.conn.eraseSender :=
  (emits_tcpPersistTick env io).side

@[simp] theorem eraseSender_tcpRtoData :
    (tcpRtoData env io).conn.eraseSender = io.conn.eraseSender :=
  (emits_tcpRtoData env io).side

theorem eraseSender_tcpRtoTick :
    (tcpRtoTick env io).conn.eraseSender = io.conn.eraseSender ∨
      tcpRtoTick env io = io.modify releaseConn :=
  (emits_tcpRtoTick env io).imp_left Emits.side

theorem eraseSender_tcpSend (data : List UInt8) :
    (tcpSend env io data).1.conn.eraseSender = io.conn.eraseSender :=
  (emits_tcpSend env io data).side

end Output

end CatOs.Tcp
