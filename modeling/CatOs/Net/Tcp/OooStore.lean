import CatOs.Lib.Run
import CatOs.Net.Tcp.MergeOoo
import CatOs.Net.Tcp.Frames

/-! The store of out-of-order data, whatever segments arrive. -/

namespace CatOs.Tcp

def heldLen (slot : OooSlot) : Nat := if slot.used then slot.len else 0

def slotOffset (base : Word) (slot : OooSlot) : Nat := (slot.seq - base).toNat

/--
The out-of-order slots of a connection, with positions counted from a base.

Every used slot starts at or past the base, and ends past it by less than half the number space.
-/
structure Held (base : Word) (c : TcpConn) : Prop where
  bytes : c.oooBytes.toNat = ∑ i ∈ Finset.range tcpOooSlots, heldLen (c.ooo i)
  size : ∀ i < tcpOooSlots, (c.ooo i).used = true → 1 ≤ (c.ooo i).len ∧ (c.ooo i).len ≤ tcpMss
  ahead : ∀ i < tcpOooSlots, (c.ooo i).used = true →
    slotOffset base (c.ooo i) + (c.ooo i).len < 2 ^ 31
  apart : ∀ i < tcpOooSlots, ∀ j < tcpOooSlots, i ≠ j → (c.ooo i).used = true →
    (c.ooo j).used = true →
    slotOffset base (c.ooo i) + (c.ooo i).len ≤ slotOffset base (c.ooo j) ∨
      slotOffset base (c.ooo j) + (c.ooo j).len ≤ slotOffset base (c.ooo i)

def StoreOk (c : TcpConn) : Prop := Held c.rcvNxt c

structure Contained (c d : TcpConn) : Prop where
  buffer : ∀ k, tcpBufSize ≤ k → d.rx.rxb k = c.rx.rxb k
  data : ∀ i < tcpOooSlots, ∀ k, tcpMss ≤ k → (d.ooo i).data k = (c.ooo i).data k
  others : ∀ i, tcpOooSlots ≤ i → d.ooo i = c.ooo i

def EmptyStore (c : TcpConn) : Prop :=
  c.oooBytes = 0 ∧ ∀ i < tcpOooSlots, (c.ooo i).used = false

instance (c : TcpConn) : Decidable (EmptyStore c) :=
  inferInstanceAs (Decidable (_ ∧ ∀ i < tcpOooSlots, _))

def InOrder (c : TcpConn) (seq : Word) (data : List UInt8) : Prop :=
  seq = c.rcvNxt ∧ data.length ≤ tcpMss ∧ c.rx.rxn + data.length ≤ tcpBufSize

instance (c : TcpConn) (seq : Word) (data : List UInt8) : Decidable (InOrder c seq data) :=
  inferInstanceAs (Decidable (_ ∧ _ ∧ _))

inductive StoreOp where
  /-- The payload of a segment is taken. -/
  | accept (seq : Word) (data : List UInt8)
  /-- The application reads. -/
  | recv (env : TcpEnv) (maxLen : Nat)

def storeStep (op : StoreOp) (c : TcpConn) : TcpConn :=
  match op with
  | .accept seq data => (tcpAcceptData c seq data).1
  | .recv env maxLen => (tcpRecv env (startIo c) maxLen).1.conn

section Slots

variable {base : Word} {c : TcpConn}

theorem Contained.trans {a b c : TcpConn} (first : Contained a b) (second : Contained b c) :
    Contained a c where
  buffer k past := (second.buffer k past).trans (first.buffer k past)
  data i within k past := (second.data i within k past).trans (first.data i within k past)
  others i past := (second.others i past).trans (first.others i past)

theorem Contained.refl (c : TcpConn) : Contained c c :=
  ⟨fun _ _ => rfl, fun _ _ _ _ => rfl, fun _ _ => rfl⟩

theorem seq_eq_serial (base : Word) (slot : OooSlot) :
    slot.seq = serial base (slotOffset base slot) :=
  eq_serial_sub base slot.seq

theorem Held.len_le (held : Held base c) {i : Nat} (within : i < tcpOooSlots)
    (used : (c.ooo i).used = true) : (c.ooo i).len ≤ c.oooBytes.toNat := by
  rw [held.bytes]
  have part := Finset.single_le_sum (fun j _ => Nat.zero_le (heldLen (c.ooo j)))
    (Finset.mem_range.mpr within)
  simpa [heldLen, used] using part

theorem Held.bytes_le (held : Held base c) : c.oooBytes.toNat ≤ tcpOooSlots * tcpMss := by
  rw [held.bytes]
  have bound := Finset.sum_le_card_nsmul (Finset.range tcpOooSlots) (fun i => heldLen (c.ooo i))
    tcpMss ?_
  · simpa using bound
  · intro i member
    simp only [heldLen]
    split
    · rename_i used
      exact (held.size i (Finset.mem_range.mp member) used).2
    · exact Nat.zero_le _

theorem sum_setOoo (c : TcpConn) {i : Nat} (within : i < tcpOooSlots) (slot : OooSlot) :
    ∑ j ∈ Finset.range tcpOooSlots, heldLen ((c.setOoo i slot).ooo j) + heldLen (c.ooo i) =
      ∑ j ∈ Finset.range tcpOooSlots, heldLen (c.ooo j) + heldLen slot := by
  have member : i ∈ Finset.range tcpOooSlots := Finset.mem_range.mpr within
  have others : ∑ j ∈ (Finset.range tcpOooSlots).erase i, heldLen ((c.setOoo i slot).ooo j) =
      ∑ j ∈ (Finset.range tcpOooSlots).erase i, heldLen (c.ooo j) := by
    apply Finset.sum_congr rfl
    intro j other
    rw [setOoo_ooo, if_neg (Finset.ne_of_mem_erase other)]
  rw [← Finset.add_sum_erase _ _ member,
    ← Finset.add_sum_erase _ (fun j => heldLen (c.ooo j)) member, others, setOoo_ooo, if_pos rfl]
  omega

theorem Held.setOoo (held : Held base c) {i : Nat} (within : i < tcpOooSlots) {slot : OooSlot}
    {bytes : Word} (counted : bytes.toNat + heldLen (c.ooo i) = c.oooBytes.toNat + heldLen slot)
    (size : slot.used = true → 1 ≤ slot.len ∧ slot.len ≤ tcpMss)
    (ahead : slot.used = true → slotOffset base slot + slot.len < 2 ^ 31)
    (apart : slot.used = true → ∀ j < tcpOooSlots, j ≠ i → (c.ooo j).used = true →
      slotOffset base slot + slot.len ≤ slotOffset base (c.ooo j) ∨
        slotOffset base (c.ooo j) + (c.ooo j).len ≤ slotOffset base slot) :
    Held base { c.setOoo i slot with oooBytes := bytes } := by
  have reads : ∀ j, ({ c.setOoo i slot with oooBytes := bytes } : TcpConn).ooo j =
      if j = i then slot else c.ooo j := fun j => setOoo_ooo c i j slot
  refine { bytes := ?_, size := ?_, ahead := ?_, apart := ?_ }
  · have total := sum_setOoo c within slot
    have before := held.bytes
    show bytes.toNat = ∑ j ∈ Finset.range tcpOooSlots, heldLen ((c.setOoo i slot).ooo j)
    omega
  · intro j inside
    rw [reads]
    split
    · exact size
    · exact held.size j inside
  · intro j inside
    rw [reads]
    split
    · exact ahead
    · exact held.ahead j inside
  · intro j inside k inside' different
    rw [reads, reads]
    by_cases here : j = i
    · rw [if_pos here, if_neg (fun same => different (here.trans same.symm))]
      exact fun used other => apart used k inside' (fun same => different (here.trans same.symm)) other
    by_cases there : k = i
    · rw [if_neg here, if_pos there]
      exact fun used other => (apart other j inside here used).symm
    · rw [if_neg here, if_neg there]
      exact held.apart j inside k inside' different

theorem Held.free (held : Held base c) {i : Nat} (within : i < tcpOooSlots)
    (used : (c.ooo i).used = true) :
    Held base { c.setOoo i { c.ooo i with used := false } with
      oooBytes := c.oooBytes - lenWord (c.ooo i).len } := by
  have part := held.len_le within used
  have total := held.bytes_le
  simp only [tcpOooSlots, tcpMss] at total
  refine held.setOoo within ?_ ?_ ?_ ?_
  · have freed : heldLen { c.ooo i with used := false } = 0 := rfl
    have counts : heldLen (c.ooo i) = (c.ooo i).len := by simp [heldLen, used]
    rw [freed, counts, lenWord, BitVec.toNat_sub_of_le]
    · rw [BitVec.toNat_ofNat, Nat.mod_eq_of_lt (by omega)]
      omega
    · rw [BitVec.le_def, BitVec.toNat_ofNat, Nat.mod_eq_of_lt (by omega)]
      exact part
  · intro claimed
    cases claimed
  · intro claimed
    cases claimed
  · intro claimed
    cases claimed

theorem Held.congr {d : TcpConn} (held : Held base c) (slots : d.ooo = c.ooo)
    (bytes : d.oooBytes = c.oooBytes) : Held base d where
  bytes := by rw [bytes, slots]; exact held.bytes
  size := by rw [slots]; exact held.size
  ahead := by rw [slots]; exact held.ahead
  apart := by rw [slots]; exact held.apart

theorem Held.rebase (held : Held base c) {received : Nat} (small : received < 2 ^ 31)
    (past : ∀ i < tcpOooSlots, (c.ooo i).used = true → received ≤ slotOffset base (c.ooo i)) :
    Held (serial base received) c := by
  have moved : ∀ i < tcpOooSlots, (c.ooo i).used = true →
      slotOffset (serial base received) (c.ooo i) + received = slotOffset base (c.ooo i) := by
    intro i within used
    have start := past i within used
    have bound := held.ahead i within used
    rw [slotOffset, seq_eq_serial base (c.ooo i), serial_sub_toNat base start (by omega)]
    omega
  refine { bytes := held.bytes, size := held.size, ahead := ?_, apart := ?_ }
  · intro i within used
    have bound := held.ahead i within used
    have same := moved i within used
    omega
  · intro i within j within' different used used'
    have order := held.apart i within j within' different used used'
    have same := moved i within used
    have same' := moved j within' used'
    omega

theorem EmptyStore.storeOk (empty : EmptyStore c) : StoreOk c where
  bytes := by
    have nothing : ∑ i ∈ Finset.range tcpOooSlots, heldLen (c.ooo i) = 0 :=
      Finset.sum_eq_zero fun i member => by simp [heldLen, empty.2 i (Finset.mem_range.mp member)]
    rw [nothing, empty.1]
    rfl
  size i within used := by simp [empty.2 i within] at used
  ahead i within used := by simp [empty.2 i within] at used
  apart i within j _ _ used := by simp [empty.2 i within] at used

end Slots

structure Merging (base : Word) (start : TcpConn) (received : Nat) (c : TcpConn) : Prop where
  next : c.rcvNxt = serial base received
  count : c.rx.rxn = start.rx.rxn + received
  held : Held base c
  inside : Contained start c

section Merge

variable {base : Word} {start c : TcpConn} {received : Nat}

theorem Merging.received_le (merging : Merging base start received c) : received ≤ tcpBufSize := by
  have count := merging.count
  have bounded := c.rx.rxn_le
  omega

theorem Merging.compare (merging : Merging base start received c) {position : Nat}
    (near : position < 2 ^ 31) :
    tcpSeqAfter (serial base position) c.rcvNxt = decide (received < position) ∧
      tcpSeqBefore (serial base position) c.rcvNxt = decide (position < received) := by
  have bound := merging.received_le
  simp only [tcpBufSize] at bound
  rw [merging.next]
  exact ⟨tcpSeqAfter_serial base (by omega) (by omega),
    tcpSeqBefore_serial base (by omega) (by omega)⟩

theorem Contained.setOoo (inside : Contained start c) {i : Nat} (within : i < tcpOooSlots)
    {slot : OooSlot} (bytes : Word)
    (short : ∀ k, tcpMss ≤ k → slot.data k = (c.ooo i).data k) :
    Contained start { c.setOoo i slot with oooBytes := bytes } where
  buffer := inside.buffer
  data j below k past := by
    show ((c.setOoo i slot).ooo j).data k = _
    rw [setOoo_ooo]
    split
    · rename_i same
      rw [same, short k past]
      exact inside.data i within k past
    · exact inside.data j below k past
  others j past := by
    show (c.setOoo i slot).ooo j = _
    rw [setOoo_ooo, if_neg (by omega)]
    exact inside.others j past

section I

variable (merging : Merging base start received c) {i : Nat} (within : i < tcpOooSlots)
  (used : (c.ooo i).used = true)
include merging within used

theorem Merging.dropOoo :
    Merging base start received (dropOoo c i) where
  next := merging.next
  count := merging.count
  held := merging.held.free within used
  inside := merging.inside.setOoo within _ fun _ _ => rfl

theorem Merging.trimOoo (live : tcpSeqAfter ((c.ooo i).seq + lenWord (c.ooo i).len) c.rcvNxt = true)
    (stale : tcpSeqBefore (c.ooo i).seq c.rcvNxt = true) :
    Merging base start received (trimOoo c i) := by
  have size := merging.held.size i within used
  have ahead := merging.held.ahead i within used
  have part := merging.held.len_le within used
  have bound := merging.received_le
  have counts : heldLen (c.ooo i) = (c.ooo i).len := by simp [heldLen, used]
  simp only [tcpMss, tcpBufSize] at size bound
  -- Both comparisons become comparisons of positions.
  generalize offset : slotOffset base (c.ooo i) = position at ahead
  have seq : (c.ooo i).seq = serial base position := offset ▸ seq_eq_serial base (c.ooo i)
  rw [seq, serial_lenWord, (merging.compare ahead).1, decide_eq_true_eq] at live
  rw [seq, (merging.compare (by omega)).2, decide_eq_true_eq] at stale
  have trim : (c.rcvNxt - (c.ooo i).seq).toNat = received - position := by
    rw [merging.next, seq, serial_sub_toNat base (by omega) (by omega)]
  have rest : ((c.ooo i).seq + lenWord (c.ooo i).len - c.rcvNxt).toNat % 2 ^ 16 =
      position + (c.ooo i).len - received := by
    rw [merging.next, seq, serial_lenWord, serial_sub_toNat base (by omega) (by omega)]
    omega
  have start' : ∀ slot : OooSlot, slot.seq = c.rcvNxt → slotOffset base slot = received := by
    intro slot here
    rw [slotOffset, here, merging.next, serial_sub_base base (by omega)]
  refine { next := merging.next, count := merging.count, held := ?_, inside := ?_ }
  · refine merging.held.setOoo within ?_ ?_ ?_ ?_
    · -- The count loses exactly what is cut off.
      rw [BitVec.toNat_sub_of_le (by rw [BitVec.le_def, trim]; omega), trim, counts]
      simp only [heldLen, used, if_true, rest]
      omega
    · intro _
      simp only [rest, tcpMss]
      omega
    · intro _
      rw [start' _ rfl]
      simp only [rest]
      omega
    · intro _ j below other used'
      have order := merging.held.apart i within j below (Ne.symm other) used used'
      rw [start' _ rfl]
      simp only [rest]
      omega
  · refine merging.inside.setOoo within _ fun k past => ?_
    simp only [tcpMss] at past
    show (c.ooo i).data.copyWithin 0 _ _ k = _
    rw [Buffer.copyWithin_apply _ (Nat.zero_le _), if_neg (by omega)]

theorem Merging.deliverOoo (fits : c.rx.rxn + (c.ooo i).len ≤ tcpBufSize) :
    Merging base start (received + (c.ooo i).len) (deliverOoo c i) := by
  have room : c.rx.rxn + ((c.ooo i).data.read 0 (c.ooo i).len).length ≤ tcpBufSize := by
    rw [Buffer.length_read]
    exact fits
  have count := merging.count
  simp only [CatOs.Tcp.deliverOoo, tcpRxAppend, dif_pos room]
  refine { next := ?_, count := ?_, held := ?_, inside := ?_ }
  · show c.rcvNxt + lenWord (c.ooo i).len = _
    rw [merging.next, serial_lenWord]
  · show c.rx.rxn + ((c.ooo i).data.read 0 (c.ooo i).len).length = _
    rw [Buffer.length_read]
    omega
  · exact (merging.held.free within used).congr rfl rfl
  · have freed : Contained start
        { c.setOoo i { c.ooo i with used := false } with oooBytes := c.oooBytes } :=
      merging.inside.setOoo within c.oooBytes fun _ _ => rfl
    refine { buffer := fun k past => ?_, data := freed.data, others := freed.others }
    show c.rx.rxb.write c.rx.rxn _ k = _
    rw [Buffer.write_after _ _ (by omega)]
    exact merging.inside.buffer k past

end I

theorem Merging.tcpMergeOoo (merging : Merging base start received c) :
    StoreOk (tcpMergeOoo c) ∧ Contained start (tcpMergeOoo c) ∧
      (∃ later, received ≤ later ∧ (tcpMergeOoo c).rcvNxt = serial base later ∧
        (tcpMergeOoo c).rx.rxn = start.rx.rxn + later) ∧
      ∀ i < tcpOooSlots, Waits (tcpMergeOoo c) i := by
  -- The next expected byte only ever advances, by what is delivered.
  have merge : (∃ later, received ≤ later ∧ Merging base start later (CatOs.Tcp.tcpMergeOoo c)) ∧
      ∀ i < tcpOooSlots, Waits (CatOs.Tcp.tcpMergeOoo c) i := by
    refine tcpMergeOoo_keeps (fun c => ∃ later, received ≤ later ∧ Merging base start later c)
      ?_ ?_ ?_ ⟨received, Nat.le_refl received, merging⟩
    · intro c i within used earlier
      obtain ⟨later, ahead, held⟩ := earlier
      exact ⟨later, ahead, held.dropOoo within used⟩
    · intro c i within used live stale earlier
      obtain ⟨later, ahead, held⟩ := earlier
      exact ⟨later, ahead, held.trimOoo within used live stale⟩
    · intro c i within used _ fits earlier
      obtain ⟨later, ahead, held⟩ := earlier
      exact ⟨later + (c.ooo i).len, by omega, held.deliverOoo within used fits⟩
  obtain ⟨⟨later, ahead, merged⟩, waiting⟩ := merge
  have bound := merged.received_le
  simp only [tcpBufSize] at bound
  refine ⟨?_, merged.inside, ⟨later, ahead, merged.next, merged.count⟩, waiting⟩
  unfold StoreOk
  rw [merged.next]
  refine merged.held.rebase (by omega) ?_
  -- A slot that is left does not start before the next expected byte.
  intro i within used
  have notStale := ((waiting i within).settled used).2
  have near := merged.held.ahead i within used
  rw [seq_eq_serial base, (merged.compare (by omega)).2, decide_eq_false_iff_not] at notStale
  omega

end Merge

section Calls

variable {c : TcpConn}

theorem findOoo_some {test : OooSlot → Bool} {i : Nat} (found : findOoo c test = some i) :
    i < tcpOooSlots ∧ test (c.ooo i) = true :=
  ⟨List.mem_range.mp (List.mem_of_find?_eq_some found), (List.find?_eq_some_iff_append.mp found).1⟩

theorem findOoo_none {test : OooSlot → Bool} (missing : findOoo c test = none) {i : Nat}
    (within : i < tcpOooSlots) : test (c.ooo i) = false := by
  have fails := List.find?_eq_none.mp missing i (List.mem_range.mpr within)
  simpa using fails

structure Queued (c : TcpConn) (seq : Word) (data : List UInt8) (i trim : Nat) : Prop where
  slot : i < tcpOooSlots
  free : (c.ooo i).used = false
  short : data.length ≤ tcpMss
  room : (c.oooBytes + lenWord data.length).toNat ≤ tcpBufSize
  cut : trim < data.length
  front : if tcpSeqAfter seq c.rcvNxt then trim = 0 else seq + lenWord trim = c.rcvNxt
  ahead : (seq + lenWord trim - c.rcvNxt).toNat + (data.length - trim) < 2 ^ 31
  apart : ∀ j < tcpOooSlots, overlapsOoo (seq + lenWord trim) (data.length - trim) (c.ooo j) = false

theorem cut_front {seq next : Word} {len : Nat} (positive : 0 < len) (short : len ≤ tcpMss)
    (live : tcpSeqAfter (seq + lenWord len) next = true) :
    ∃ trim, (if tcpSeqAfter seq next then 0 else (next - seq).toNat) = trim ∧ trim < len ∧
      (if tcpSeqAfter seq next then trim = 0 else seq + lenWord trim = next) ∧
      (seq + lenWord trim - next).toNat + (len - trim) < 2 ^ 31 := by
  simp only [tcpMss] at short
  have ends := offset_lt_of_after live
  generalize offset : (seq - next).toNat = off
  have small : off < 2 ^ 32 := offset ▸ (seq - next).isLt
  obtain rfl : seq = serial next off := offset ▸ eq_serial_sub next seq
  have wrapped : (serial next off + lenWord len - next).toNat = (off + len) % 2 ^ 32 := by
    have same : serial next off + lenWord len - next = BitVec.ofNat 32 (off + len) := by
      rw [serial_lenWord, serial, add_sub_cancel_left]
    rw [same, BitVec.toNat_ofNat]
  rw [wrapped] at ends
  cases after : tcpSeqAfter (serial next off) next with
  | true =>
    -- The whole segment lies ahead.
    have start := offset_lt_of_after after
    rw [offset] at start
    refine ⟨0, rfl, positive, rfl, ?_⟩
    rw [show lenWord 0 = 0 from rfl, add_zero, offset]
    omega
  | false =>
    have start := offset_of_not_after after
    rw [offset] at start
    have trim : (next - serial next off).toNat = (2 ^ 32 - off) % 2 ^ 32 := by
      rw [← neg_sub, BitVec.toNat_neg, offset]
    have rest : serial next off + lenWord ((2 ^ 32 - off) % 2 ^ 32) = next := by
      rw [← trim, lenWord, BitVec.ofNat_toNat, BitVec.setWidth_eq, add_sub_cancel]
    simp only [Bool.false_eq_true, if_false]
    refine ⟨_, trim, by omega, rest, ?_⟩
    rw [rest, BitVec.sub_self, BitVec.toNat_zero]
    omega

theorem tcpQueueOoo_cases (c : TcpConn) (seq : Word) (data : List UInt8) :
    tcpQueueOoo c seq data = (c, false) ∨ ∃ i trim, Queued c seq data i trim ∧
      tcpQueueOoo c seq data =
        (fillOoo c i (seq + lenWord trim) (data.length - trim) (data.drop trim), true) := by
  simp only [tcpQueueOoo]
  split
  · exact .inl rfl
  rename_i sized
  simp only [not_or, Nat.not_lt, gt_iff_lt] at sized
  split
  · exact .inl rfl
  rename_i live
  have live : tcpSeqAfter (seq + lenWord data.length) c.rcvNxt = true := by simpa using live
  obtain ⟨trim, cutting, cut, front, ahead⟩ :=
    cut_front (Nat.pos_of_ne_zero sized.1) sized.2.1 live
  rw [cutting]
  -- Only a segment that overlaps nothing finds a place.
  cases overlap : findOoo c (overlapsOoo (seq + lenWord trim) (data.length - trim)) with
  | some j => exact .inl rfl
  | none =>
    cases free : findOoo c fun slot => !slot.used with
    | none => exact .inl rfl
    | some i =>
      obtain ⟨slot, unused⟩ := findOoo_some free
      refine .inr ⟨i, trim, ?_, rfl⟩
      exact { slot := slot, free := by simpa using unused, short := sized.2.1, room := sized.2.2,
              cut := cut, front := front, ahead := ahead
              apart := fun j below => findOoo_none overlap below }

theorem StoreOk.fillOoo (ok : StoreOk c) {seq : Word} {data : List UInt8} {i trim : Nat}
    (queued : Queued c seq data i trim) :
    StoreOk (fillOoo c i (seq + lenWord trim) (data.length - trim) (data.drop trim)) ∧
      Contained c (fillOoo c i (seq + lenWord trim) (data.length - trim) (data.drop trim)) := by
  have short := queued.short
  have cut := queued.cut
  have ahead := queued.ahead
  have total := ok.bytes_le
  simp only [tcpMss, tcpOooSlots] at short total
  have len : (data.length - trim) % 2 ^ 16 = data.length - trim := Nat.mod_eq_of_lt (by omega)
  constructor
  · refine ok.setOoo queued.slot ?_ ?_ ?_ ?_
    · -- The count gains exactly what is kept.
      have before : heldLen (c.ooo i) = 0 := by simp [heldLen, queued.free]
      have word : (lenWord (data.length - trim)).toNat = data.length - trim := by
        rw [lenWord, BitVec.toNat_ofNat]
        exact Nat.mod_eq_of_lt (by omega)
      rw [before, BitVec.toNat_add, word, Nat.mod_eq_of_lt (by omega)]
      simp only [heldLen, if_true, len]
      omega
    · intro _
      simp only [len, tcpMss]
      omega
    · intro _
      simp only [len]
      exact ahead
    · intro _ j below other used
      simp only [len]
      have near := ok.ahead j below used
      have clear := queued.apart j below
      -- Both comparisons become comparisons of positions.
      generalize start : (seq + lenWord trim - c.rcvNxt).toNat = x at ahead
      generalize offset : slotOffset c.rcvNxt (c.ooo j) = y at near ⊢
      have here : seq + lenWord trim = serial c.rcvNxt x := start ▸ eq_serial_sub _ _
      have there : (c.ooo j).seq = serial c.rcvNxt y := offset ▸ seq_eq_serial _ _
      rw [overlapsOoo, used, here, there, serial_lenWord, serial_lenWord,
        tcpSeqBefore_serial _ (by omega) (by omega), tcpSeqBefore_serial _ (by omega) (by omega),
        Bool.true_and, ← Bool.decide_and, decide_eq_false_iff_not] at clear
      simp only [slotOffset, start]
      omega
  · refine (Contained.refl c).setOoo queued.slot _ fun k past => ?_
    simp only [tcpMss] at past
    have width : 0 + (data.drop trim).length ≤ k := by
      rw [List.length_drop]
      omega
    exact Buffer.write_after _ _ width

theorem StoreOk.append (ok : StoreOk c) {data : List UInt8}
    (fits : c.rx.rxn + data.length ≤ tcpBufSize) :
    Merging c.rcvNxt c data.length
      { tcpRxAppend c data with rcvNxt := (tcpRxAppend c data).rcvNxt + lenWord data.length } := by
  simp only [tcpRxAppend, dif_pos fits]
  refine { next := rfl, count := rfl, held := ok.congr rfl rfl, inside := ?_ }
  refine { buffer := fun k past => ?_, data := fun _ _ _ _ => rfl, others := fun _ _ => rfl }
  exact Buffer.write_after _ _ (by omega)

theorem StoreOk.tcpAcceptData (ok : StoreOk c) (seq : Word) (data : List UInt8) :
    StoreOk (tcpAcceptData c seq data).1 ∧ Contained c (tcpAcceptData c seq data).1 := by
  simp only [CatOs.Tcp.tcpAcceptData]
  split
  · rcases tcpQueueOoo_cases c seq data with same | ⟨i, trim, queued, stored⟩
    · rw [same]
      exact ⟨ok, .refl c⟩
    · rw [stored]
      exact ok.fillOoo queued
  split
  · rename_i accepted
    obtain ⟨merged, inside, -⟩ := (ok.append accepted.2).tcpMergeOoo
    exact ⟨merged, inside⟩
  · exact ⟨ok, .refl c⟩

theorem StoreOk.tcpRecv (ok : StoreOk c) (env : TcpEnv) (maxLen : Nat) :
    StoreOk (tcpRecv env (startIo c) maxLen).1.conn ∧
      Contained c (tcpRecv env (startIo c) maxLen).1.conn := by
  rcases tcpRecv_conn env (startIo c) maxLen with same | ⟨n, window, read⟩
  · rw [same]
    exact ⟨ok, .refl c⟩
  · rw [read]
    refine ⟨ok.congr rfl rfl, ?_, fun _ _ _ _ => rfl, fun _ _ => rfl⟩
    -- The bytes that are left move to the front.
    intro k past
    have bounded := c.rx.rxn_le
    show (if c.rx.rxn > n then c.rx.rxb.copyWithin 0 n (c.rx.rxn - n) else c.rx.rxb) k = _
    split
    · rw [Buffer.copyWithin_apply _ (Nat.zero_le _), if_neg (by omega)]
    · rfl

theorem StoreOk.step (ok : StoreOk c) (op : StoreOp) :
    StoreOk (storeStep op c) ∧ Contained c (storeStep op c) := by
  cases op with
  | accept seq data => exact ok.tcpAcceptData seq data
  | recv env maxLen => exact ok.tcpRecv env maxLen

theorem storeOk_of_run {start : TcpConn} (empty : EmptyStore start)
    (run : Run storeStep (fun _ _ => True) start c) : StoreOk c ∧ Contained start c := by
  refine run.invariant (fun c => StoreOk c ∧ Contained start c) ⟨empty.storeOk, .refl start⟩ ?_
  intro op c _ held
  have next := held.1.step op
  exact ⟨next.1, held.2.trans next.2⟩

end Calls

def hostileOps : List StoreOp :=
  [.accept 110 [1, 2, 3], .accept 111 [9, 9], .accept 0x7FFFFF00 [4], .accept 100 [5, 6],
    .recv ⟨0, fun _ => .sent⟩ 1, .accept 102 [7, 7, 7, 7, 7, 7, 7, 7, 7]]

def expecting : TcpConn := { zeroConn with rcvNxt := 100 }

end CatOs.Tcp
