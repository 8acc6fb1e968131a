import CatOs.Net.Tcp.MergeOoo
import CatOs.Net.Tcp.Socket

/-! The application reads exactly the byte stream that the peer sent. -/

namespace CatOs.Tcp

def reach : Nat := 2 ^ 30

def SlotHolds (stream : Buffer UInt8) (base : Word) (low received : Nat) (slot : OooSlot) : Prop :=
  slot.used = true → ∃ position, slot.seq = serial base position ∧ low ≤ position ∧
    position < received + reach ∧ 0 < slot.len ∧ slot.len ≤ tcpMss ∧
    slot.data.read 0 slot.len = stream.read position slot.len

/--
The receive side of a connection, after some bytes were read and some were received.

The slots start at or past a given position.
Between calls this is the next expected byte, and within a merge it is the first unread byte.
-/
structure Receiving (stream : Buffer UInt8) (base : Word) (read received low : Nat)
    (c : TcpConn) : Prop where
  next : c.rcvNxt = serial base received
  count : received = read + c.rx.rxn
  bytes : c.rx.rxb.read 0 c.rx.rxn = stream.read read c.rx.rxn
  unread : read ≤ low
  slots : ∀ i < tcpOooSlots, SlotHolds stream base low received (c.ooo i)

section Receive

variable {stream : Buffer UInt8} {base : Word} {read received low : Nat} {c : TcpConn}

theorem Receiving.received_le (inv : Receiving stream base read received low c) :
    received ≤ read + tcpBufSize := by
  have bounded := c.rx.rxn_le
  have count := inv.count
  omega

theorem slotHolds_unused {slot : OooSlot} :
    SlotHolds stream base low received { slot with used := false } := by
  intro claimed
  simp at claimed

theorem SlotHolds.mono {slot : OooSlot} {lower later : Nat}
    (holds : SlotHolds stream base low received slot) (earlier : lower ≤ low)
    (advanced : received ≤ later) : SlotHolds stream base lower later slot := by
  intro used
  obtain ⟨position, seq, above, near, rest⟩ := holds used
  exact ⟨position, seq, by omega, by omega, rest⟩

section Receiving

variable (inv : Receiving stream base read received low c)
include inv

theorem Receiving.relax :
    Receiving stream base read received read c :=
  { inv with
    unread := Nat.le_refl read
    slots := fun i within => (inv.slots i within).mono inv.unread (Nat.le_refl received) }

theorem Receiving.setOoo (i : Nat)
    {slot : OooSlot} (bytes : Word) (holds : SlotHolds stream base low received slot) :
    Receiving stream base read received low { c.setOoo i slot with oooBytes := bytes } := by
  refine { next := inv.next, count := inv.count, bytes := inv.bytes, unread := inv.unread,
           slots := fun j within => ?_ }
  show SlotHolds stream base low received ((c.setOoo i slot).ooo j)
  rw [setOoo_ooo]
  split
  · exact holds
  · exact inv.slots j within

theorem Receiving.append {len : Nat}
    (fits : c.rx.rxn + len ≤ tcpBufSize) :
    Receiving stream base read (received + len) low
      { tcpRxAppend c (stream.read received len) with rcvNxt := c.rcvNxt + lenWord len } := by
  have room : c.rx.rxn + (stream.read received len).length ≤ tcpBufSize := by simpa using fits
  have count := inv.count
  simp only [tcpRxAppend, dif_pos room]
  refine { next := ?_, count := ?_, bytes := ?_, unread := inv.unread, slots := ?_ }
  · simp only [inv.next, serial_lenWord]
  · simp only [Buffer.length_read]
    omega
  · -- The old bytes and the appended ones are consecutive runs of the stream.
    show (c.rx.rxb.write c.rx.rxn (stream.read received len)).read 0
        (c.rx.rxn + (stream.read received len).length) =
      stream.read read (c.rx.rxn + (stream.read received len).length)
    rw [Buffer.read_write_append, inv.bytes, Buffer.length_read, Buffer.read_add, ← count]
  · exact fun i within => (inv.slots i within).mono (Nat.le_refl low) (Nat.le_add_right _ _)

theorem Receiving.dropOoo (i : Nat) :
    Receiving stream base read received low (dropOoo c i) :=
  inv.setOoo i _ slotHolds_unused

theorem Receiving.compare {position : Nat}
    (above : low ≤ position) (near : position < received + reach) (past : Nat)
    (short : past ≤ tcpMss) :
    tcpSeqAfter (serial base (position + past)) c.rcvNxt = decide (received < position + past) ∧
      tcpSeqBefore (serial base (position + past)) c.rcvNxt =
        decide (position + past < received) := by
  have bound := inv.received_le
  have unread := inv.unread
  simp only [reach, tcpBufSize, tcpMss] at near bound short
  rw [inv.next]
  exact ⟨tcpSeqAfter_serial base (by omega) (by omega),
    tcpSeqBefore_serial base (by omega) (by omega)⟩

end Receiving

theorem Receiving.trimOoo (inv : Receiving stream base read received read c) {i : Nat}
    (within : i < tcpOooSlots) (used : (c.ooo i).used = true)
    (live : tcpSeqAfter ((c.ooo i).seq + lenWord (c.ooo i).len) c.rcvNxt = true)
    (stale : tcpSeqBefore (c.ooo i).seq c.rcvNxt = true) :
    Receiving stream base read received read (trimOoo c i) := by
  obtain ⟨position, seq, above, near, positive, short, run⟩ := inv.slots i within used
  have bound := inv.received_le
  -- Both comparisons become comparisons of stream positions.
  rw [seq, serial_lenWord, (inv.compare above near _ short).1, decide_eq_true_eq] at live
  have start := (inv.compare above near 0 (Nat.zero_le _)).2
  rw [Nat.add_zero] at start
  rw [seq, start, decide_eq_true_eq] at stale
  simp only [reach, tcpMss, tcpBufSize] at near short bound
  have trim : (c.rcvNxt - (c.ooo i).seq).toNat = received - position := by
    rw [inv.next, seq, serial_sub_toNat base (by omega) (by omega)]
  have rest : ((c.ooo i).seq + lenWord (c.ooo i).len - c.rcvNxt).toNat % 2 ^ 16 =
      (c.ooo i).len - (received - position) := by
    rw [inv.next, seq, serial_lenWord, serial_sub_toNat base (by omega) (by omega)]
    omega
  refine inv.setOoo i _ fun _ => ⟨received, inv.next, by have := inv.count; omega,
    by simp only [reach]; omega, ?_, ?_, ?_⟩
  · simp only [rest]
    omega
  · simp only [rest, tcpMss]
    omega
  · simp only [rest, trim, Buffer.read_copyWithin_front]
    -- Dropping the same number of bytes from both runs keeps them equal.
    have dropped := congrArg (List.drop (received - position)) run
    rw [Buffer.drop_read _ _ (by omega), Buffer.drop_read _ _ (by omega), Nat.zero_add] at dropped
    rw [dropped, Nat.add_sub_cancel' (Nat.le_of_lt stale)]

theorem Receiving.deliverOoo (inv : Receiving stream base read received read c) {i : Nat}
    (within : i < tcpOooSlots) (used : (c.ooo i).used = true)
    (turn : (c.ooo i).seq = c.rcvNxt) (fits : c.rx.rxn + (c.ooo i).len ≤ tcpBufSize) :
    Receiving stream base read (received + (c.ooo i).len) read (deliverOoo c i) := by
  obtain ⟨position, seq, above, near, positive, short, run⟩ := inv.slots i within used
  have bound := inv.received_le
  simp only [reach, tcpBufSize] at near bound
  -- Equal sequence numbers this close together are equal positions.
  have same : position = received := by
    rw [seq, inv.next] at turn
    rcases Nat.le_total received position with order | order
    · exact serial_injective base order (by omega) turn
    · exact (serial_injective base order (by omega) turn.symm).symm
  rw [same] at run
  have appended := inv.append fits
  rw [← run] at appended
  have freed := appended.setOoo i (c.oooBytes - lenWord (c.ooo i).len)
    (slotHolds_unused : SlotHolds _ _ _ _ { c.ooo i with used := false })
  have counters : (tcpRxAppend c ((c.ooo i).data.read 0 (c.ooo i).len)).oooBytes = c.oooBytes ∧
      (tcpRxAppend c ((c.ooo i).data.read 0 (c.ooo i).len)).rcvNxt = c.rcvNxt := by
    unfold tcpRxAppend
    split <;> exact ⟨rfl, rfl⟩
  simp only [CatOs.Tcp.deliverOoo, counters]
  exact freed

theorem Receiving.tcpMergeOoo (inv : Receiving stream base read received read c) :
    ∃ later, received ≤ later ∧ Receiving stream base read later later (tcpMergeOoo c) := by
  -- The next expected byte only ever advances, by what is delivered.
  have merge : (∃ later, received ≤ later ∧
        Receiving stream base read later read (CatOs.Tcp.tcpMergeOoo c)) ∧
      ∀ i < tcpOooSlots, Waits (CatOs.Tcp.tcpMergeOoo c) i := by
    refine tcpMergeOoo_keeps
      (fun c => ∃ later, received ≤ later ∧ Receiving stream base read later read c)
      ?_ ?_ ?_ ⟨received, Nat.le_refl received, inv⟩
    · intro c i _ _ earlier
      obtain ⟨later, ahead, held⟩ := earlier
      exact ⟨later, ahead, held.dropOoo i⟩
    · intro c i within used live stale earlier
      obtain ⟨later, ahead, held⟩ := earlier
      exact ⟨later, ahead, held.trimOoo within used live stale⟩
    · intro c i within used turn fits earlier
      obtain ⟨later, ahead, held⟩ := earlier
      exact ⟨later + (c.ooo i).len, by omega, held.deliverOoo within used turn fits⟩
  obtain ⟨⟨later, ahead, merged⟩, settled⟩ := merge
  refine ⟨later, ahead, { merged with unread := ?_, slots := fun i within used => ?_ }⟩
  · have count := merged.count
    omega
  · obtain ⟨position, seq, above, near, rest⟩ := merged.slots i within used
    have start := (merged.compare above near 0 (Nat.zero_le _)).2
    have notStale := ((settled i within).settled used).2
    rw [seq, ← Nat.add_zero position, start, decide_eq_false_iff_not] at notStale
    exact ⟨position, seq, by omega, near, rest⟩

theorem Receiving.tcpQueueOoo (inv : Receiving stream base read received received c)
    {position len : Nat} (below : position < received + reach)
    (above : received < position + reach + tcpBufSize) :
    Receiving stream base read received received
      (tcpQueueOoo c (serial base position) (stream.read position len)).1 := by
  simp only [CatOs.Tcp.tcpQueueOoo, Buffer.length_read, serial_lenWord]
  split
  · exact inv
  · rename_i accepted
    have short : 0 < len ∧ len ≤ tcpMss := by omega
    simp only [reach, tcpBufSize, tcpMss] at below above short
    have ends := tcpSeqAfter_serial base (x := position + len) (y := received) (by omega)
      (by omega)
    have starts := tcpSeqAfter_serial base (x := position) (y := received) (by omega) (by omega)
    simp only [inv.next, ends, starts]
    split
    · exact inv
    · rename_i live
      have live : received < position + len := by simpa using live
      -- The part kept starts at the later of its own start and the next expected byte.
      obtain ⟨trim, trimEq, kept, start⟩ : ∃ trim, (if decide (received < position) = true then 0
          else (serial base received - serial base position).toNat) = trim ∧ trim < len ∧
          received ≤ position + trim ∧ position + trim < received + reach := by
        by_cases later : received < position
        · exact ⟨0, by simp [later], by omega, by omega, by simp only [reach]; omega⟩
        · refine ⟨received - position, ?_, by omega, by omega, by simp only [reach]; omega⟩
          simp only [later, decide_false, Bool.false_eq_true, if_false]
          exact serial_sub_toNat base (by omega) (by omega)
      simp only [trimEq]
      split
      · exact inv
      · exact inv
      · have shorter : (len - trim) % 2 ^ 16 = len - trim := Nat.mod_eq_of_lt (by omega)
        refine inv.setOoo _ _ fun _ => ⟨position + trim, rfl, start.1, start.2, ?_, ?_, ?_⟩
        · simp only [shorter]
          omega
        · simp only [shorter, tcpMss]
          omega
        · simp only [shorter]
          rw [Buffer.drop_read _ _ (by omega)]
          exact Buffer.read_write_of_length _ _ (Buffer.length_read _ _ _)

theorem Receiving.tcpAcceptData (inv : Receiving stream base read received received c)
    (position len : Nat) (below : position < received + reach)
    (above : received < position + reach + tcpBufSize) :
    ∃ later, received ≤ later ∧ Receiving stream base read later later
      (tcpAcceptData c (serial base position) (stream.read position len)).1 := by
  simp only [CatOs.Tcp.tcpAcceptData, Buffer.length_read]
  split
  · exact ⟨received, Nat.le_refl received, inv.tcpQueueOoo below above⟩
  · rename_i turn
    have turn : serial base position = serial base received := by
      simpa [inv.next] using turn
    simp only [reach, tcpBufSize] at below above
    have same : position = received := by
      rcases Nat.le_total received position with order | order
      · exact serial_injective base order (by omega) turn
      · exact (serial_injective base order (by omega) turn.symm).symm
    split
    · rename_i room
      have appended := inv.relax.append room.2
      obtain ⟨later, ahead, merged⟩ := appended.tcpMergeOoo
      refine ⟨later, by omega, ?_⟩
      have kept : (tcpRxAppend c (stream.read received len)).rcvNxt = c.rcvNxt := by
        unfold tcpRxAppend
        split <;> rfl
      rw [same, kept]
      exact merged
    · exact ⟨received, Nat.le_refl received, inv⟩

theorem Receiving.advWin (inv : Receiving stream base read received low c) (window : Half) :
    Receiving stream base read received low { c with advWin := window } :=
  { next := inv.next, count := inv.count, bytes := inv.bytes, unread := inv.unread,
    slots := inv.slots }

theorem Receiving.consume (inv : Receiving stream base read received received c) {n : Nat}
    (available : n ≤ c.rx.rxn) :
    c.rx.rxb.read 0 n = stream.read read n ∧
      Receiving stream base (read + n) received received (consumeRx n c) := by
  have count := inv.count
  refine ⟨?_, { next := inv.next, count := ?_, bytes := ?_, unread := by omega,
                slots := inv.slots }⟩
  · rw [← Buffer.take_read _ _ available, inv.bytes, Buffer.take_read _ _ available]
  · show received = read + n + (c.rx.rxn - n)
    omega
  · -- What is left is the old run without its first bytes, moved to the front.
    have rest := congrArg (List.drop n) inv.bytes
    rw [Buffer.drop_read _ _ available, Buffer.drop_read _ _ available, Nat.zero_add] at rest
    simp only [consumeRx, TcpRx.consume]
    split
    · rw [Buffer.read_copyWithin_front, rest]
    · have none : c.rx.rxn - n = 0 := by omega
      simp [none]

theorem Receiving.tcpWindowUpdateAck {env : TcpEnv} {io : TcpIo}
    (inv : Receiving stream base read received low io.conn) :
    (tcpWindowUpdateAck env io).delivered = io.delivered ∧
      Receiving stream base read received low (tcpWindowUpdateAck env io).conn := by
  simp only [CatOs.Tcp.tcpWindowUpdateAck, tcpPutCtl]
  split
  · exact ⟨rfl, inv⟩
  · split
    · obtain ⟨window, sent⟩ :=
        tcpPutPkt_conn env io tcpFlagAck io.conn.sndNxt io.conn.rcvNxt []
      rw [sent]
      exact ⟨tcpPutPkt_delivered .., inv.advWin window⟩
    · exact ⟨rfl, inv⟩

theorem Receiving.tcpRecv {env : TcpEnv} {io : TcpIo} {maxLen : Nat}
    (inv : Receiving stream base read received received io.conn)
    (sofar : io.delivered = stream.read 0 read) :
    ∃ later, (tcpRecv env io maxLen).1.delivered = stream.read 0 later ∧
      Receiving stream base later received received (tcpRecv env io maxLen).1.conn := by
  simp only [CatOs.Tcp.tcpRecv]
  split
  · exact ⟨read, sofar, inv⟩
  · split
    · split <;> exact ⟨read, sofar, inv⟩
    · obtain ⟨n, amount, available⟩ : ∃ n, (if io.conn.rx.rxn > maxLen then maxLen
          else io.conn.rx.rxn) = n ∧ n ≤ io.conn.rx.rxn := ⟨_, rfl, by split <;> omega⟩
      rw [amount]
      obtain ⟨bytes, rest⟩ := inv.consume available
      let io' : TcpIo := { io with
        conn := consumeRx n io.conn
        delivered := io.delivered ++ io.conn.rx.rxb.read 0 n }
      obtain ⟨same, updated⟩ :=
        (show Receiving _ _ _ _ _ io'.conn from rest).tcpWindowUpdateAck
      refine ⟨read + n, ?_, updated⟩
      rw [same, Buffer.read_add, Nat.zero_add, ← bytes, ← sofar]

end Receive

/--
A history of one connection's receive side, with the total advance of the next expected byte.

Every segment carries the stream's bytes at its own position.
It starts less than `reach` bytes from what has been delivered, where the bytes that
were received and not yet read may be counted as delivered or not.
-/
inductive ReceiveRun (stream : Buffer UInt8) (base : Word) (start : TcpIo) : TcpIo → Nat → Prop
  | start : ReceiveRun stream base start start 0
  | segment {io : TcpIo} {advance : Nat} (earlier : ReceiveRun stream base start io advance)
      (position len delivered : Nat) (read : io.delivered.length ≤ delivered)
      (received : delivered ≤ advance) (below : position < delivered + reach)
      (above : delivered < position + reach) :
      ReceiveRun stream base start
        (io.modify fun c => (tcpAcceptData c (serial base position) (stream.read position len)).1)
        (advance + ((tcpAcceptData io.conn (serial base position)
          (stream.read position len)).1.rcvNxt - io.conn.rcvNxt).toNat)
  | recv {io : TcpIo} {advance : Nat} (earlier : ReceiveRun stream base start io advance)
      (env : TcpEnv) (maxLen : Nat) :
      ReceiveRun stream base start (tcpRecv env io maxLen).1 advance

theorem ReceiveRun.receiving {stream : Buffer UInt8} {base : Word} {start io : TcpIo}
    {advance : Nat} (run : ReceiveRun stream base start io advance)
    (initially : Receiving stream base 0 0 0 start.conn) (nothing : start.delivered = []) :
    ∃ read, io.delivered = stream.read 0 read ∧
      Receiving stream base read advance advance io.conn := by
  induction run with
  | start => exact ⟨0, nothing, initially⟩
  | @segment io advance earlier position len delivered read received below above ih =>
    obtain ⟨done, sofar, inv⟩ := ih
    have bound := inv.received_le
    rw [sofar, Buffer.length_read] at read
    obtain ⟨later, ahead, accepted⟩ := inv.tcpAcceptData position len (by omega) (by omega)
    -- The measured advance is the distance between the two positions.
    have limit := accepted.received_le
    simp only [tcpBufSize] at limit
    have moved : ((tcpAcceptData io.conn (serial base position)
        (stream.read position len)).1.rcvNxt - io.conn.rcvNxt).toNat = later - advance := by
      rw [accepted.next, inv.next]
      exact serial_sub_toNat base ahead (by omega)
    rw [moved, Nat.add_sub_cancel' ahead]
    exact ⟨done, sofar, accepted⟩
  | recv earlier env maxLen ih =>
    obtain ⟨done, sofar, inv⟩ := ih
    exact inv.tcpRecv sofar

/--
What the application has read, followed by what waits in the receive buffer, is the stream
up to the next expected byte.

Segments may come in any order, any number of times, overlapping or not at all.
-/
theorem receive_stream_integrity {stream : Buffer UInt8} {base : Word} {start io : TcpIo}
    {advance : Nat} (emptyBuffer : start.conn.rx.rxn = 0)
    (emptySlots : ∀ i < tcpOooSlots, (start.conn.ooo i).used = false)
    (first : start.conn.rcvNxt = base) (nothing : start.delivered = [])
    (run : ReceiveRun stream base start io advance) :
    io.delivered ++ io.conn.rx.rxb.read 0 io.conn.rx.rxn = stream.read 0 advance ∧
      io.conn.rcvNxt = serial base advance := by
  have initially : Receiving stream base 0 0 0 start.conn :=
    { next := by simp [first]
      count := by simp [emptyBuffer]
      bytes := by simp [emptyBuffer]
      unread := Nat.le_refl 0
      slots := fun i within used => by simp [emptySlots i within] at used }
  obtain ⟨read, sofar, inv⟩ := run.receiving initially nothing
  refine ⟨?_, inv.next⟩
  rw [sofar, inv.bytes, inv.count, Buffer.read_add, Nat.zero_add]

/-- Two segments that arrive in the wrong order, across the wrap of the sequence numbers. -/
theorem receive_stream_integrity_reordered :
    let stream : Buffer UInt8 := UInt8.ofNat
    let start := startIo { zeroConn with rcvNxt := 0xFFFFFFFE }
    ∃ io advance, ReceiveRun stream 0xFFFFFFFE start io advance ∧
      advance = 5 ∧ io.delivered = [0, 1, 2, 3] ∧
      io.delivered ++ io.conn.rx.rxb.read 0 io.conn.rx.rxn = stream.read 0 advance ∧
      io.conn.rcvNxt = serial 0xFFFFFFFE advance := by
  intro stream start
  have initially : ReceiveRun stream 0xFFFFFFFE start start 0 := .start
  have early := initially.segment 3 2 0 (by decide) (by decide) (by decide) (by decide)
  have late := early.segment 0 3 0 (by decide) (by decide) (by decide) (by decide)
  have run := late.recv { ticks := 0, outcome := fun _ => .sent } 4
  exact ⟨_, _, run, by decide, by decide,
    receive_stream_integrity rfl (fun _ _ => rfl) rfl rfl run⟩

end CatOs.Tcp
