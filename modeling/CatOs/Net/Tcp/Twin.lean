import CatOs.Net.Tcp.Shift

/-! Connections that no operation can tell apart, up to where their sequence numbers start. -/

namespace CatOs.Tcp

def TcpConn.scalars (c : TcpConn) : TcpConn :=
  { c with
    backlog := 0
    peerMss := 0
    rx := zeroConn.rx
    ooo := zeroConn.ooo
    sackLeft := zeroConn.sackLeft
    sackRight := zeroConn.sackRight
    sackN := 0
    snd := zeroConn.snd
    tx := zeroConn.tx
    twUntil := 0
    nodelay := false
    rcvWscale := 0
    sndWscale := 0 }

def TcpConn.unread (c : TcpConn) : Nat × Half × Bool × BitVec 8 × BitVec 8 :=
  (c.backlog, c.peerMss, c.nodelay, c.rcvWscale, c.sndWscale)

def TcpConn.blocks (c : TcpConn) : (Buffer Word × Buffer Word) × Nat :=
  ((c.sackLeft, c.sackRight), c.sackN)

def TcpConn.stores (c : TcpConn) :=
  ((c.rx, c.ooo, c.snd), (c.tx, c.txN), c.blocks, c.unread)

def TcpConn.marks (c : TcpConn) : Bool × Word × Bool × Word :=
  (c.rttPending, c.rttSeq, c.fastRecovery, c.recoverSeq)

/--
Two slots agree on being used, and on their data if they are.

Taken as a whole they agree on their data in any case, up to where the numbers start.
-/
structure SlotTwin (j : Word) (whole : Prop) (x y : OooSlot) : Prop where
  used : y.used = x.used
  seq : whole ∨ x.used = true → y.seq = x.seq + j
  len : whole ∨ x.used = true → y.len = x.len
  data : ∀ i, whole ∨ x.used = true ∧ i < x.len → y.data i = x.data i

structure SackTwin (k : Word) (whole : Prop) (x y : (Buffer Word × Buffer Word) × Nat) : Prop where
  count : y.2 = x.2
  left : ∀ i, whole ∨ i < x.2 → y.1.1 i = x.1.1 i + k
  right : ∀ i, whole ∨ i < x.2 → y.1.2 i = x.1.2 i + k

/--
Two connections that no operation can tell apart, up to where their sequence numbers start.

The reported blocks have to agree only while the segment that reported them is at hand, and what
no operation ever looks at has to agree only if the connections are taken as a whole.
The send buffer has to agree up to one segment beyond what it counts, since resending a close
reads that far.
-/
structure Twin (k j : Word) (whole fresh : Prop) (c d : TcpConn) : Prop where
  scalars : d.scalars = (c.shift k j d.rttSeq d.recoverSeq).scalars
  rtt : c.rttPending = true → d.rttSeq = c.rttSeq + k
  recover : c.fastRecovery = true → d.recoverSeq = c.recoverSeq + k
  waits : whole ∨ c.state = .timeWait → d.twUntil = c.twUntil
  unread : whole → d.unread = c.unread
  mss : effMss d = effMss c
  blocks : whole ∨ fresh → SackTwin k whole c.blocks d.blocks
  rxn : d.rx.rxn = c.rx.rxn
  rxb : ∀ i, whole ∨ i < c.rx.rxn → d.rx.rxb i = c.rx.rxb i
  ooo : ∀ i, whole ∨ i < tcpOooSlots → SlotTwin j whole (c.ooo i) (d.ooo i)
  sndUsed : d.snd.sndUsed = c.snd.sndUsed
  sndb : ∀ i, whole ∨ i < max c.snd.sndUsed tcpMss → d.snd.sndb i = c.snd.sndb i
  tx : ∀ i, whole ∨ i < c.txN → d.tx i = (c.tx i).shift k

section Relation

variable {k j : Word} {whole fresh : Prop} {c d : TcpConn} (twin : Twin k j whole fresh c d)
include twin

theorem Twin.field {α : Type} (read : TcpConn → α) :
    read d.scalars = read (c.shift k j d.rttSeq d.recoverSeq).scalars :=
  congrArg read twin.scalars

theorem Twin.state : d.state = c.state := twin.field TcpConn.state

theorem Twin.used : d.used = c.used := twin.field TcpConn.used

theorem Twin.dead : d.dead = c.dead := twin.field TcpConn.dead

theorem Twin.peerWin : d.peerWin = c.peerWin := twin.field TcpConn.peerWin

theorem Twin.oooBytes : d.oooBytes = c.oooBytes := twin.field TcpConn.oooBytes

theorem Twin.txN : d.txN = c.txN := twin.field TcpConn.txN

theorem Twin.dupacks : d.dupacks = c.dupacks := twin.field TcpConn.dupacks

theorem Twin.fastRecovery : d.fastRecovery = c.fastRecovery := twin.field TcpConn.fastRecovery

theorem Twin.sndNxt : d.sndNxt = c.sndNxt + k := twin.field TcpConn.sndNxt

theorem Twin.sndUna : d.sndUna = c.sndUna + k := twin.field TcpConn.sndUna

theorem Twin.sndIsn : d.sndIsn = c.sndIsn + k := twin.field TcpConn.sndIsn

theorem Twin.rcvNxt : d.rcvNxt = c.rcvNxt + j := twin.field TcpConn.rcvNxt

theorem Twin.inFlight : d.inFlight = c.inFlight := by
  rw [TcpConn.inFlight, twin.sndNxt, twin.sndUna, add_sub_add_right_eq_sub, TcpConn.inFlight]

theorem Twin.read_sndb {start count : Nat} (within : start + count ≤ max c.snd.sndUsed tcpMss) :
    d.snd.sndb.read start count = c.snd.sndb.read start count :=
  Buffer.read_congr fun i below => twin.sndb (start + i) (.inr (by omega))

theorem Twin.of_stores {c' d' : TcpConn}
    (scalars : d'.scalars = (c'.shift k j d'.rttSeq d'.recoverSeq).scalars)
    (rtt : c'.rttPending = true → d'.rttSeq = c'.rttSeq + k)
    (recover : c'.fastRecovery = true → d'.recoverSeq = c'.recoverSeq + k)
    (waits : whole ∨ c'.state = .timeWait → d'.twUntil = c'.twUntil)
    (left : c'.stores = c.stores) (right : d'.stores = d.stores) : Twin k j whole fresh c' d' := by
  simp only [TcpConn.stores, TcpConn.unread, Prod.mk.injEq] at left right
  obtain ⟨⟨rx, ooo, snd⟩, ⟨tx, txN⟩, blocks, backlog, mss, rest⟩ := left
  obtain ⟨⟨rx', ooo', snd'⟩, ⟨tx', -⟩, blocks', backlog', mss', rest'⟩ := right
  refine { scalars := scalars, rtt := rtt, recover := recover, waits := waits, unread := fun all => ?_
           mss := ?_, blocks := fun now => ?_, rxn := ?_, rxb := ?_, ooo := ?_, sndUsed := ?_
           sndb := ?_, tx := ?_ }
  · have same := twin.unread all
    simp only [TcpConn.unread, Prod.mk.injEq] at same ⊢
    simp only [backlog, mss, rest, backlog', mss', rest', same, and_self]
  · simp only [effMss, mss, mss']
    exact twin.mss
  · rw [blocks, blocks']
    exact twin.blocks now
  · rw [rx, rx']
    exact twin.rxn
  · rw [rx, rx']
    exact twin.rxb
  · rw [ooo, ooo']
    exact twin.ooo
  · rw [snd, snd']
    exact twin.sndUsed
  · rw [snd, snd']
    exact twin.sndb
  · rw [tx, tx', txN]
    exact twin.tx

theorem Twin.stale (later : Prop) (known : later → fresh) : Twin k j whole later c d :=
  { twin with blocks := fun now => twin.blocks (now.imp_right known) }

omit twin

theorem Twin.ite {p q : Prop} [Decidable p] [Decidable q] {c' d' : TcpConn} (same : q ↔ p)
    (yes : p → Twin k j whole fresh c d) (no : ¬p → Twin k j whole fresh c' d') :
    Twin k j whole fresh (if p then c else c') (if q then d else d') := by
  by_cases chosen : p
  · rw [if_pos chosen, if_pos (same.mpr chosen)]
    exact yes chosen
  · rw [if_neg chosen, if_neg fun there => chosen (same.mp there)]
    exact no chosen

end Relation

/--
Two updates of a few fields that agree up to moving the numbers.

They neither read nor write a buffer, and leave the marks alone.
For an update that is written out all parts hold by computation.
-/
structure PlainOp (k j : Word) (f g : TcpConn → TcpConn) : Prop where
  reads : ∀ d, (g d).scalars = (g d.scalars).scalars
  moves : ∀ c rtt recover,
    (g (c.shift k j rtt recover)).scalars = ((f c).shift k j rtt recover).scalars
  left : ∀ c, (f c).stores = c.stores ∧ (f c).marks = c.marks
  right : ∀ d, (g d).stores = d.stores ∧ (g d).marks = d.marks
  ends : ∀ c d, d.twUntil = c.twUntil → (g d).twUntil = (f c).twUntil
  waits : ∀ c d, (f c).state = .timeWait → c.state = .timeWait ∨ (g d).twUntil = (f c).twUntil

section Plain

variable {k j : Word} {whole fresh : Prop} {c d : TcpConn} {f g f' g' : TcpConn → TcpConn}

theorem Twin.plain (twin : Twin k j whole fresh c d) (op : PlainOp k j f g) :
    Twin k j whole fresh (f c) (g d) := by
  obtain ⟨left, marks⟩ := op.left c
  obtain ⟨right, marks'⟩ := op.right d
  simp only [TcpConn.marks, Prod.mk.injEq] at marks marks'
  obtain ⟨pending, rtt, recovering, recover⟩ := marks
  obtain ⟨-, rtt', -, recover'⟩ := marks'
  refine twin.of_stores ?_ (fun waits => ?_) (fun waits => ?_) (fun at_ => ?_) left right
  · rw [rtt', recover', op.reads, twin.scalars, ← op.reads, op.moves]
  · rw [rtt, rtt']
    exact twin.rtt (pending.symm.trans waits)
  · rw [recover, recover']
    exact twin.recover (recovering.symm.trans waits)
  · rcases at_ with all | waiting
    · exact op.ends c d (twin.waits (.inl all))
    · rcases op.waits c d waiting with before | set
      · exact op.ends c d (twin.waits (.inr before))
      · exact set

def TcpConn.still (c : TcpConn) := ((c.stores, c.marks), c.state, c.twUntil)

theorem PlainOp.same (reads : ∀ c, (f c).scalars = (f c.scalars).scalars)
    (moves : ∀ c rtt recover,
      (f (c.shift k j rtt recover)).scalars = ((f c).shift k j rtt recover).scalars)
    (still : ∀ c, (f c).still = c.still) : PlainOp k j f f := by
  have kept : ∀ c, (f c).stores = c.stores ∧ (f c).marks = c.marks := fun c =>
    ⟨congrArg (fun s => s.1.1) (still c), congrArg (fun s => s.1.2) (still c)⟩
  have timed : ∀ c, (f c).twUntil = c.twUntil := fun c => congrArg (fun s => s.2.2) (still c)
  refine ⟨reads, moves, kept, kept, fun c d same => ?_, fun c d waiting => .inl ?_⟩
  · rw [timed, timed, same]
  · exact (congrArg (fun s => s.2.1) (still c)).symm.trans waiting

theorem PlainOp.enter {next : TcpState} (other : next ≠ .timeWait)
    (state : ∀ c, (f c).state = next) (reads : ∀ c, (f c).scalars = (f c.scalars).scalars)
    (moves : ∀ c rtt recover,
      (f (c.shift k j rtt recover)).scalars = ((f c).shift k j rtt recover).scalars)
    (kept : ∀ c, (f c).stores = c.stores ∧ (f c).marks = c.marks)
    (ends : ∀ c d, d.twUntil = c.twUntil → (f d).twUntil = (f c).twUntil) : PlainOp k j f f :=
  ⟨reads, moves, kept, kept, ends, fun c _ waiting => absurd ((state c).symm.trans waiting) other⟩

theorem PlainOp.id : PlainOp k j (fun c => c) fun c => c :=
  .same (fun _ => rfl) (fun _ _ _ => rfl) fun _ => rfl

theorem PlainOp.ite {p : TcpConn → Prop} [DecidablePred p] (yes : PlainOp k j f f)
    (no : PlainOp k j f' f') (scalar : ∀ c, p c.scalars ↔ p c)
    (blind : ∀ c rtt recover, p (c.shift k j rtt recover) ↔ p c)
    (still : ∀ c, (f c).state = c.state ∧ (f c).twUntil = c.twUntil)
    (still' : ∀ c, (f' c).state = c.state ∧ (f' c).twUntil = c.twUntil) :
    PlainOp k j (fun c => if p c then f c else f' c) fun c => if p c then f c else f' c := by
  refine .same (fun c => ?_) (fun c rtt recover => ?_) fun c => ?_
  · simp only [scalar c]
    split
    · exact yes.reads c
    · exact no.reads c
  · simp only [blind c]
    split
    · exact yes.moves c rtt recover
    · exact no.moves c rtt recover
  · simp only [TcpConn.still]
    split
    · rw [(yes.left c).1, (yes.left c).2, (still c).1, (still c).2]
    · rw [(no.left c).1, (no.left c).2, (still' c).1, (still' c).2]

end Plain

section Timers

variable {k j : Word} (ticks : Word)

theorem plainOp_tcpPersistArm : PlainOp k j (tcpPersistArm ticks) (tcpPersistArm ticks) :=
  .ite (.same (fun _ => rfl) (fun _ _ _ => rfl) fun _ => rfl) .id (fun _ => Iff.rfl)
    (fun _ _ _ => Iff.rfl) (fun _ => ⟨rfl, rfl⟩) fun _ => ⟨rfl, rfl⟩

theorem plainOp_tcpPersistClear : PlainOp k j tcpPersistClear tcpPersistClear :=
  .same (fun _ => rfl) (fun _ _ _ => rfl) fun _ => rfl

theorem plainOp_tcpRtoArm : PlainOp k j (tcpRtoArm ticks) (tcpRtoArm ticks) :=
  .same (fun _ => rfl) (fun _ _ _ => rfl) fun _ => rfl

theorem plainOp_tcpRtoRearm : PlainOp k j (tcpRtoRearm ticks) (tcpRtoRearm ticks) :=
  .same (fun _ => rfl) (fun _ _ _ => rfl) fun _ => rfl

theorem plainOp_tcpRtoRetry : PlainOp k j (tcpRtoRetry ticks) (tcpRtoRetry ticks) :=
  .same (fun _ => rfl) (fun _ _ _ => rfl) fun _ => rfl

theorem plainOp_tcpAckTimer : PlainOp k j (tcpAckTimer ticks) (tcpAckTimer ticks) := by
  have rearm : PlainOp k j (fun c => if c.rtoDeadline = 0 then tcpRtoRearm ticks c else c)
      fun c => if c.rtoDeadline = 0 then tcpRtoRearm ticks c else c :=
    .ite (plainOp_tcpRtoRearm ticks) .id (fun _ => Iff.rfl) (fun _ _ _ => Iff.rfl)
      (fun _ => ⟨rfl, rfl⟩) fun _ => ⟨rfl, rfl⟩
  refine .ite (.same (fun _ => rfl) (fun _ _ _ => rfl) fun _ => rfl) rearm (fun _ => Iff.rfl)
    (fun c _ _ => add_left_inj k) (fun _ => ⟨rfl, rfl⟩) fun c => ?_
  split <;> exact ⟨rfl, rfl⟩

theorem plainOp_setCwnd (next : Word → Word → Word) :
    PlainOp k j (fun c => setCwnd (next c.cwnd c.ssthresh) c)
      fun c => setCwnd (next c.cwnd c.ssthresh) c :=
  .same (fun _ => rfl) (fun _ _ _ => rfl) fun _ => rfl

theorem plainOp_tcpAckCwnd (acked : Nat) : PlainOp k j (tcpAckCwnd acked) (tcpAckCwnd acked) := by
  unfold tcpAckCwnd
  split
  · exact .id
  · exact .ite (plainOp_setCwnd fun cwnd _ => cwnd + lenWord (if acked > tcpMss then tcpMss else acked))
      (plainOp_setCwnd fun cwnd _ =>
        let inc := lenWord (tcpMss * acked) / (if cwnd ≠ 0 then cwnd else lenWord tcpMss)
        cwnd + if inc ≠ 0 then inc else 1) (fun _ => Iff.rfl) (fun _ _ _ => Iff.rfl)
      (fun _ => ⟨rfl, rfl⟩) fun _ => ⟨rfl, rfl⟩

theorem plainOp_releaseConn : PlainOp k j releaseConn releaseConn :=
  .enter (by decide : TcpState.closed ≠ .timeWait) (fun _ => rfl) (fun _ => rfl) (fun _ _ _ => rfl)
    (fun _ => ⟨rfl, rfl⟩) fun _ _ _ => rfl

theorem plainOp_enterTimeWait : PlainOp k j (enterTimeWait ticks) (enterTimeWait ticks) :=
  ⟨fun _ => rfl, fun _ _ _ => rfl, fun _ => ⟨rfl, rfl⟩, fun _ => ⟨rfl, rfl⟩, fun _ _ _ => rfl,
    fun _ _ _ => .inr rfl⟩

end Timers

section Marks

variable {k j : Word} {whole fresh : Prop} {c d : TcpConn} (twin : Twin k j whole fresh c d)
include twin

theorem Twin.shrinkWindow (ssthresh : Word) :
    Twin k j whole fresh (shrinkWindow ssthresh c) (shrinkWindow ssthresh d) :=
  -- No recovery is under way any more, so that its number does not matter.
  twin.of_stores (congrArg (CatOs.Tcp.shrinkWindow ssthresh) twin.scalars) twin.rtt
    (fun waits => absurd waits Bool.false_ne_true) twin.waits rfl rfl

theorem Twin.endRecovery :
    Twin k j whole fresh { c with fastRecovery := false } { d with fastRecovery := false } :=
  twin.of_stores (congrArg (fun e : TcpConn => { e with fastRecovery := false }) twin.scalars)
    twin.rtt (fun waits => absurd waits Bool.false_ne_true) twin.waits rfl rfl

theorem Twin.startRecovery (cwnd : Word) :
    Twin k j whole fresh (startRecovery cwnd c) (startRecovery cwnd d) :=
  twin.of_stores
    (congrArg (fun e : TcpConn =>
      { e with dupacks := 3, cwnd := cwnd, fastRecovery := true, recoverSeq := d.sndNxt })
      twin.scalars)
    twin.rtt (fun _ => twin.sndNxt) twin.waits rfl rfl

theorem Twin.enterRecovery (inFlight : Word) :
    Twin k j whole fresh (enterRecovery inFlight c) (enterRecovery inFlight d) :=
  (twin.shrinkWindow _).startRecovery _

theorem Twin.startRtt (ticks : Word) (n : Nat) :
    Twin k j whole fresh (startRtt ticks n c) (startRtt ticks n d) := by
  have pending : d.rttPending = c.rttPending := twin.field TcpConn.rttPending
  simp only [CatOs.Tcp.startRtt, pending]
  split
  · exact twin
  · refine twin.of_stores (congrArg (fun e : TcpConn =>
      { e with rttStamp := ticks, rttSeq := d.sndNxt + lenWord n, rttPending := true
               rttRetransmitted := false }) twin.scalars) (fun _ => ?_) twin.recover twin.waits rfl rfl
    show d.sndNxt + lenWord n = c.sndNxt + lenWord n + k
    rw [twin.sndNxt, shift_lenWord]

theorem Twin.tcpAckRtt (ticks ack : Word) :
    Twin k j whole fresh (tcpAckRtt ticks ack c) (tcpAckRtt ticks (ack + k) d) := by
  have pending : d.rttPending = c.rttPending := twin.field TcpConn.rttPending
  have resent : d.rttRetransmitted = c.rttRetransmitted :=
    twin.field TcpConn.rttRetransmitted
  have sampled : Twin k j whole fresh (tcpRttSample c (ticks - c.rttStamp))
      (tcpRttSample d (ticks - d.rttStamp)) :=
    twin.plain (f := fun c => tcpRttSample c (ticks - c.rttStamp))
      (.same (fun _ => rfl) (fun _ _ _ => rfl) fun _ => rfl)
  have ended : ∀ {c d}, Twin k j whole fresh c d → Twin k j whole fresh (endRtt c) (endRtt d) :=
    fun twin => twin.of_stores (congrArg endRtt twin.scalars)
      (fun waits => absurd waits Bool.false_ne_true) twin.recover twin.waits rfl rfl
  refine Twin.ite ?_ (fun _ => ended ?_) fun _ => twin
  · -- While a measurement is under way, its number has moved along.
    rw [pending]
    refine and_congr_right fun waits => ?_
    rw [twin.rtt waits, tcpSeqBefore_shift]
  · exact Twin.ite (by rw [resent]) (fun _ => twin) fun _ => sampled

theorem Twin.tcpAckRecovery (ack : Word) :
    Twin k j whole fresh (tcpAckRecovery ack c) (tcpAckRecovery (ack + k) d) := by
  refine Twin.ite ?_ (fun _ => ?_) fun _ => twin
  · rw [twin.fastRecovery]
    refine and_congr_right fun waits => ?_
    rw [twin.recover waits, tcpSeqAfter_shift, add_left_inj]
  · exact twin.of_stores (congrArg (fun e : TcpConn =>
      { e with cwnd := e.ssthresh, fastRecovery := false }) twin.scalars) twin.rtt
      (fun waits => absurd waits Bool.false_ne_true) twin.waits rfl rfl

end Marks

end CatOs.Tcp
