import CatOs.Drivers.E1000Tx

/-! Every submitted frame is transmitted once and unchanged, where sends do not nest. -/

namespace CatOs.E1000

open Function

/--
The entries between head and tail hold the submitted frames that are not on the wire yet.

Everything on the wire was submitted, in the same order.
-/
structure Consistent (ring : TxRing) : Prop where
  next : ring.txNext = ring.submitted.length % txN
  tail : ring.tdt = ring.submitted.length % txN
  head : ring.tdh = ring.wire.length % txN
  sent : ring.wire <+: ring.submitted
  spare : ring.submitted.length < ring.wire.length + txN
  pending : ∀ j, ring.wire.length ≤ j → ∀ frame, ring.submitted[j]? = some frame →
    (ring.tx (j % txN)).dd = false ∧ (ring.tx (j % txN)).addr = j % txN ∧
      (ring.tbuf (j % txN)).read 0 (ring.tx (j % txN)).len = frame
  free : ∀ j, ring.submitted.length ≤ j → j < ring.wire.length + txN →
    (ring.tx (j % txN)).dd = true

def Send.Owns (send : Send) (ring : TxRing) : Prop :=
  match send.point with
  | .alloc => True
  | .fill n => n = ring.txNext
  | .submit => (ring.tbuf ring.txNext).read 0 send.frame.bytes.length = send.frame.bytes

/--
The steps under which every buffer has one owner.

No interrupt sends between the allocation and the submission of a task's send.
No submission takes the last free entry, which the card could not tell from an empty ring.
-/
def TxAllowed (input : TxInput) (sys : TxSystem) : Prop :=
  match input with
  | .transmit | .call _ => True
  | .interrupt _ => sys.irq = none → ∀ task, sys.task = some task → task.point = .alloc
  | .step => ∀ send, (sys.irq = some send ∨ (sys.irq = none ∧ sys.task = some send)) →
      send.point = .submit → (sys.ring.txNext + 1) % txN ≠ sys.ring.tdh

variable {ring : TxRing}

theorem Consistent.wire_le (good : Consistent ring) :
    ring.wire.length ≤ ring.submitted.length := good.sent.length_le

theorem Consistent.next_free (good : Consistent ring) : (ring.tx ring.txNext).dd = true := by
  rw [good.next]
  exact good.free _ (Nat.le_refl _) good.spare

theorem Consistent.pending_ne_next (good : Consistent ring) {j : Nat}
    (from_ : ring.wire.length ≤ j) (below : j < ring.submitted.length) :
    j % txN ≠ ring.txNext := by
  have spare := good.spare
  rw [good.next]
  simp only [txN] at *
  omega

theorem Consistent.transmit (good : Consistent ring) : Consistent ring.transmit := by
  unfold TxRing.transmit
  by_cases none_left : ring.tdh = ring.tdt
  · rw [if_pos none_left]
    exact good
  rw [if_neg none_left]
  have wire_le := good.wire_le
  have spare := good.spare
  -- Head and tail differ, so at least one frame waits, and the head is at the oldest one.
  have waits : ring.wire.length < ring.submitted.length := by
    rcases Nat.lt_or_ge ring.wire.length ring.submitted.length with below | past
    · exact below
    · have level : ring.wire.length = ring.submitted.length := Nat.le_antisymm wire_le past
      exact absurd (good.head.trans (level ▸ good.tail.symm)) none_left
  obtain ⟨dd, addr, contents⟩ := good.pending ring.wire.length (Nat.le_refl _) _
    (List.getElem?_eq_getElem waits)
  have emitted : (ring.tbuf (ring.tx ring.tdh).addr).read 0 (ring.tx ring.tdh).len =
      ring.submitted[ring.wire.length] := by
    rw [good.head, addr]
    exact contents
  have longer : (ring.wire ++ [ring.submitted[ring.wire.length]]).length =
      ring.wire.length + 1 := by simp
  simp only [emitted]
  refine ⟨good.next, good.tail, ?_, ?_, ?_, ?_, ?_⟩
  · simp only [good.head, longer, txN]
    omega
  · -- The wire was a beginning of what was submitted, and grows by the next frame of it.
    have sent := List.prefix_iff_eq_take.mp good.sent
    rw [List.prefix_iff_eq_take, longer, List.take_succ_eq_append_getElem waits, ← sent]
  · simp only [longer]
    omega
  · intro j from_ frame found
    simp only [longer] at from_
    have below : j < ring.submitted.length := (List.getElem?_eq_some_iff.mp found).1
    have apart : j % txN ≠ ring.tdh := by
      rw [good.head]
      simp only [txN] at *
      omega
    simp only [update_of_ne apart]
    exact good.pending j (by omega) frame found
  · intro j from_ below
    simp only [longer] at below
    by_cases same : j % txN = ring.tdh
    · simp only [same, update_self]
    · simp only [update_of_ne same]
      apply good.free j from_
      -- The one further entry is the one that was just transmitted.
      rw [good.head] at same
      simp only [txN] at *
      omega

theorem Consistent.fill (good : Consistent ring) (frame : TxFrame) :
    Consistent (ring.fill ring.txNext frame) := by
  refine ⟨good.next, good.tail, good.head, good.sent, good.spare, ?_, good.free⟩
  intro j from_ waiting found
  have below : j < ring.submitted.length := (List.getElem?_eq_some_iff.mp found).1
  simp only [TxRing.fill, update_of_ne (good.pending_ne_next from_ below)]
  exact good.pending j from_ waiting found

theorem read_padded (buffer : Buffer UInt8) (frame : TxFrame)
    (composed : buffer.read 0 frame.bytes.length = frame.bytes) :
    (buffer.write frame.bytes.length
      (List.replicate (minFrame - frame.bytes.length) 0)).read 0
        (max frame.bytes.length minFrame) = frame.padded := by
  have width : max frame.bytes.length minFrame = frame.bytes.length +
      (List.replicate (minFrame - frame.bytes.length) (0 : UInt8)).length := by
    rw [List.length_replicate]
    omega
  rw [width, Buffer.read_write_append, composed, TxFrame.padded]

theorem padded_length_fits (frame : TxFrame) :
    (max frame.bytes.length minFrame) % 65536 = max frame.bytes.length minFrame := by
  have fits := frame.fits
  simp only [txBufSize, minFrame] at *
  omega

/-- The frame that a send has in its buffer when it submits becomes the newest waiting frame. -/
theorem Consistent.submit (good : Consistent ring) {frame : TxFrame}
    (composed : (ring.tbuf ring.txNext).read 0 frame.bytes.length = frame.bytes)
    (spare : (ring.txNext + 1) % txN ≠ ring.tdh) :
    Consistent { (ring.pad ring.txNext frame.bytes.length).publish ring.txNext frame.bytes.length
      with submitted := ring.submitted ++ [frame.padded] } := by
  have wire_le := good.wire_le
  have room := good.spare
  have longer : (ring.submitted ++ [frame.padded]).length = ring.submitted.length + 1 := by simp
  -- The entry after the next one is not the head, so the ring does not fill up.
  have left : ring.submitted.length + 1 < ring.wire.length + txN := by
    rcases Nat.lt_or_ge (ring.submitted.length + 1) (ring.wire.length + txN) with fits | full
    · exact fits
    · refine absurd ?_ spare
      rw [good.next, good.head]
      simp only [txN] at *
      omega
  refine ⟨?_, ?_, good.head, good.sent.trans (List.prefix_append _ _), ?_, ?_, ?_⟩
  · simp only [TxRing.publish, good.next, longer, txN]
    omega
  · simp only [TxRing.publish, good.next, longer, txN]
    omega
  · simp only [longer]
    exact left
  · intro j from_ waiting found
    change (ring.submitted ++ [frame.padded])[j]? = some waiting at found
    rcases Nat.lt_or_ge j ring.submitted.length with below | past
    · rw [List.getElem?_append_left below] at found
      have apart := good.pending_ne_next from_ below
      simp only [TxRing.publish, TxRing.pad, update_of_ne apart]
      exact good.pending j from_ waiting found
    · -- The only frame past the earlier ones is the one that was just submitted.
      have last : j = ring.submitted.length := by
        have below := (List.getElem?_eq_some_iff.mp found).1
        omega
      subst last
      rw [List.getElem?_concat_length, Option.some.injEq] at found
      rw [← good.next, ← found]
      simp only [TxRing.publish, TxRing.pad, update_self, padded_length_fits, true_and]
      exact read_padded _ frame composed
  · intro j from_ below
    simp only [longer] at from_
    have apart : j % txN ≠ ring.txNext := by
      change j < ring.wire.length + txN at below
      rw [good.next]
      simp only [txN] at *
      omega
    simp only [TxRing.publish, update_of_ne apart]
    exact good.free j (by omega) below

def SendRest (rest : Option Send) (ring : TxRing) : Prop :=
  ∀ send, rest = some send → send.Owns ring

theorem Consistent.sendStep (good : Consistent ring) {send : Send} (owns : send.Owns ring)
    (spare : send.point = .submit → (ring.txNext + 1) % txN ≠ ring.tdh) :
    Consistent (sendStep send ring).1 ∧ SendRest (sendStep send ring).2 (sendStep send ring).1 := by
  obtain ⟨point, frame⟩ := send
  cases point with
  | alloc =>
    -- The next entry is always free, so the send gets its buffer.
    have free : e1000TxAlloc ring = some ring.txNext := by simp [e1000TxAlloc, good.next_free]
    simp only [CatOs.E1000.sendStep, free]
    refine ⟨good, fun send found => ?_⟩
    cases found
    rfl
  | fill n =>
    cases owns
    refine ⟨good.fill frame, fun send found => ?_⟩
    cases found
    have written : (ring.fill ring.txNext frame).tbuf ring.txNext =
        (ring.tbuf ring.txNext).write 0 frame.bytes := update_self _ _ _
    change ((ring.fill ring.txNext frame).tbuf ring.txNext).read 0 frame.bytes.length = frame.bytes
    rw [written, Buffer.read_write_self]
  | submit =>
    have free := good.next_free
    simp only [CatOs.E1000.sendStep, e1000TxSubmit, free, if_true]
    exact ⟨good.submit owns (spare rfl), fun send found => by cases found⟩

structure TxInv (sys : TxSystem) : Prop where
  good : Consistent sys.ring
  irq : SendRest sys.irq sys.ring
  task : ∀ task, sys.task = some task →
    (sys.irq = none → task.Owns sys.ring) ∧ (sys.irq ≠ none → task.point = .alloc)

theorem Send.owns_of_alloc {send : Send} (start : send.point = .alloc) : send.Owns ring := by
  obtain ⟨point, frame⟩ := send
  cases start
  trivial

theorem Send.Owns.transmit {send : Send} (owns : send.Owns ring) : send.Owns ring.transmit := by
  have next : ring.transmit.txNext = ring.txNext := by
    unfold TxRing.transmit
    split <;> rfl
  have buffers : ring.transmit.tbuf = ring.tbuf := by
    unfold TxRing.transmit
    split <;> rfl
  obtain ⟨point, frame⟩ := send
  cases point with
  | alloc => trivial
  | fill n => exact owns.trans next.symm
  | submit =>
    change (ring.transmit.tbuf ring.transmit.txNext).read 0 _ = _
    rw [next, buffers]
    exact owns

theorem TxInv.transmit {sys : TxSystem} (inv : TxInv sys) : TxInv (txStep .transmit sys) where
  good := inv.good.transmit
  irq := fun send found => (inv.irq send found).transmit
  task := fun task found =>
    ⟨fun quiet => ((inv.task task found).1 quiet).transmit, (inv.task task found).2⟩

theorem TxInv.call {sys : TxSystem} (inv : TxInv sys) (frame : TxFrame) :
    TxInv (txStep (.call frame) sys) := by
  obtain ⟨ring, task, irq⟩ := sys
  cases task with
  | some task => exact inv
  | none =>
    cases irq with
    | some irq => exact inv
    | none =>
      refine ⟨inv.good, inv.irq, fun task found => ?_⟩
      cases found
      exact ⟨fun _ => trivial, fun _ => rfl⟩

theorem TxInv.interrupt {sys : TxSystem} (inv : TxInv sys) (frame : TxFrame)
    (may : TxAllowed (.interrupt frame) sys) : TxInv (txStep (.interrupt frame) sys) := by
  obtain ⟨ring, task, irq⟩ := sys
  cases irq with
  | some irq => exact inv
  | none =>
    refine ⟨inv.good, fun send found => ?_, fun task found => ⟨?_, fun _ => may rfl task found⟩⟩
    · cases found
      trivial
    · intro quiet
      cases quiet

theorem TxInv.step {sys : TxSystem} (inv : TxInv sys) (may : TxAllowed .step sys) :
    TxInv (txStep .step sys) := by
  obtain ⟨ring, task, irq⟩ := sys
  cases irq with
  | some irq =>
    obtain ⟨good, rest⟩ := inv.good.sendStep (inv.irq irq rfl) (may irq (.inl rfl))
    refine ⟨good, rest, fun task found => ?_⟩
    -- The task waits before its allocation for as long as the interrupt runs.
    have start := (inv.task task found).2 (Option.some_ne_none irq)
    exact ⟨fun _ => Send.owns_of_alloc start, fun _ => start⟩
  | none =>
    cases task with
    | none => exact inv
    | some task =>
      obtain ⟨good, rest⟩ :=
        inv.good.sendStep ((inv.task task rfl).1 rfl) (may task (.inr ⟨rfl, rfl⟩))
      refine ⟨good, fun send found => (by cases found), fun task found => ?_⟩
      exact ⟨fun _ => rest task found, fun busy => absurd rfl busy⟩

theorem txInv_init : TxInv txInit := by
  refine ⟨⟨rfl, rfl, rfl, List.prefix_refl _, by decide, ?_, fun _ _ _ => rfl⟩, ?_, ?_⟩
  · intro j _ frame found
    cases found
  · intro send found
    cases found
  · intro task found
    cases found

theorem txInv_run {sys : TxSystem} (run : Run txStep TxAllowed txInit sys) : TxInv sys := by
  refine run.invariant TxInv txInv_init ?_
  intro input sys may inv
  cases input with
  | transmit => exact inv.transmit
  | call frame => exact inv.call frame
  | interrupt frame => exact inv.interrupt frame may
  | step => exact inv.step may

theorem Consistent.transmits_next (good : Consistent ring) {frame : List UInt8}
    (waits : ring.submitted[ring.wire.length]? = some frame) :
    ring.transmit.wire = ring.wire ++ [frame] := by
  have below := (List.getElem?_eq_some_iff.mp waits).1
  have spare := good.spare
  have differ : ring.tdh ≠ ring.tdt := by
    rw [good.head, good.tail]
    simp only [txN] at *
    omega
  obtain ⟨_, addr, contents⟩ := good.pending ring.wire.length (Nat.le_refl _) frame waits
  rw [TxRing.transmit, if_neg differ]
  simp only [good.head, addr, contents]

/--
Where sends do not nest, each submitted frame is transmitted once, unchanged and in order.

Every entry handed to the card points at a buffer that holds the frame of the send that submitted
it, and the card transmits the waiting frames one after the other.
-/
theorem submitted_frames_are_transmitted {sys : TxSystem}
    (run : Run txStep TxAllowed txInit sys) :
    sys.ring.wire <+: sys.ring.submitted ∧
      (∀ j frame, sys.ring.wire.length ≤ j → sys.ring.submitted[j]? = some frame →
        (sys.ring.tx (j % txN)).dd = false ∧
          (sys.ring.tbuf (sys.ring.tx (j % txN)).addr).read 0 (sys.ring.tx (j % txN)).len =
            frame) ∧
      ∀ frame, sys.ring.submitted[sys.ring.wire.length]? = some frame →
        sys.ring.transmit.wire = sys.ring.wire ++ [frame] := by
  have good := (txInv_run run).good
  refine ⟨good.sent, fun j frame from_ found => ?_, fun frame => good.transmits_next⟩
  obtain ⟨dd, addr, contents⟩ := good.pending j from_ frame found
  rw [addr]
  exact ⟨dd, contents⟩

def plainFrame (byte : UInt8) : TxFrame where
  bytes := List.replicate 60 byte
  fits := by
    rw [List.length_replicate]
    decide

def apartSends : List TxInput :=
  [.call (plainFrame 1), .step, .step, .step, .interrupt (plainFrame 2), .step, .transmit, .step,
    .step]

/-- Two sends that do not overlap are both transmitted as they were composed. -/
theorem submitted_frames_are_transmitted_apart :
    (runInputs txStep apartSends txInit).ring.wire <+:
      (runInputs txStep apartSends txInit).ring.submitted := by
  refine (submitted_frames_are_transmitted (Run.start.inputs apartSends ?_)).1
  refine ⟨trivial, ?_, ?_, ?_, ?_, ?_, trivial, ?_, ?_, trivial⟩
  case refine_4 => exact fun _ task found => by cases found
  all_goals
    rintro send (found | ⟨_, found⟩) submitting
    all_goals cases found
    all_goals cases submitting
  all_goals decide

def nestedSends : List TxInput :=
  [.call (plainFrame 1), .step, .step, .interrupt (plainFrame 2), .step, .step, .step, .step,
    .transmit, .transmit]

/-- A send inside another one makes the card transmit a buffer that nobody composed. -/
theorem nested_send_loses_frame :
    (runInputs txStep nestedSends txInit).ring.submitted =
        [(plainFrame 2).padded, (plainFrame 1).padded] ∧
      (runInputs txStep nestedSends txInit).ring.wire =
        [(plainFrame 2).padded, List.replicate 60 0] := by
  decide +kernel

end CatOs.E1000
