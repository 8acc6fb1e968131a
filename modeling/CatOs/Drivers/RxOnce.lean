import CatOs.Drivers.E1000Rx

/-! Polling passes each received frame on exactly once, where interrupts keep off the cursor. -/

namespace CatOs.E1000

open Function

inductive Stage where
  | waiting
  | passed
  | released
  deriving DecidableEq

def Stage.taken : Stage → Nat
  | .waiting => 0
  | .passed | .released => 1

def Stage.gone : Stage → Nat
  | .waiting | .passed => 0
  | .released => 1

/--
The ring holds exactly the frames that are still to be passed on.

The cursor has moved past `c` frames, and the tail was last written after `t` of them.
-/
structure Synced (ring : RxRing) (c t : Nat) (stage : Stage) : Prop where
  cursor : ring.rxLast = c % rxN
  head : ring.rdh = ring.received % rxN
  tail : ring.rdt = (t + rxN - 1) % rxN
  tail_le : t ≤ c
  room : ring.received < t + rxN
  pending : c + stage.taken ≤ ring.received
  handled : ring.handled = List.range (c + stage.taken)
  full : ∀ j, c + stage.gone ≤ j → j < ring.received → ring.rx (j % rxN) = ⟨true, j⟩
  empty : ∀ j, ring.received ≤ j → j < c + stage.gone + rxN → (ring.rx (j % rxN)).dd = false

def Poll.Owns (poll : Poll) (ring : RxRing) (c : Nat) (stage : Stage) : Prop :=
  match poll.point with
  | .test | .next _ | .finish => stage = .waiting
  | .handle i => stage = .waiting ∧ i = c % rxN ∧ c < ring.received
  | .clear i => stage = .passed ∧ i = c % rxN
  | .advance i => stage = .released ∧ i = c % rxN

def Poll.Between (poll : Poll) : Prop :=
  match poll.point with
  | .test | .next _ | .finish => True
  | .handle _ | .clear _ | .advance _ => False

def Poll.Recent (poll : Poll) (c : Nat) : Prop :=
  match poll.point with
  | .test | .finish => 0 < poll.processed → poll.lastRdt = (c + rxN - 1) % rxN
  | .next i => i = (c + rxN - 1) % rxN
  | .handle _ | .clear _ | .advance _ => True

def Poll.TailCurrent (poll : Poll) (ring : RxRing) : Prop :=
  poll.point = .finish → 0 < poll.processed → poll.lastRdt = (ring.rxLast + rxN - 1) % rxN

variable {ring : RxRing} {c t : Nat} {stage : Stage} {poll : Poll}

theorem Synced.arrive (synced : Synced ring c t stage) : Synced ring.arrive c t stage := by
  unfold RxRing.arrive
  by_cases none_left : ring.rdh = ring.rdt
  · rw [if_pos none_left]
    exact synced
  rw [if_neg none_left]
  -- The head has not caught up with the tail, so one more frame still fits.
  have room : ring.received + 1 < t + rxN := by
    rcases Nat.lt_or_ge (ring.received + 1) (t + rxN) with fits | full
    · exact fits
    · have last : ring.received = t + rxN - 1 := by have := synced.room; omega
      exact absurd (synced.head.trans (last ▸ synced.tail.symm)) none_left
  have tail_le := synced.tail_le
  have pending := synced.pending
  have gone_le : stage.gone ≤ stage.taken := by cases stage <;> decide
  refine ⟨synced.cursor, ?_, synced.tail, tail_le, room, by simp only; omega, synced.handled,
    ?_, ?_⟩
  · simp only [synced.head, rxN]
    omega
  · intro j from_ below
    simp only [synced.head]
    rcases Nat.lt_succ_iff_lt_or_eq.mp below with earlier | rfl
    · have apart : j % rxN ≠ ring.received % rxN := by simp only [rxN] at *; omega
      rw [update_of_ne apart]
      exact synced.full j from_ earlier
    · rw [update_self]
  · intro j from_ below
    have apart : j % rxN ≠ ring.received % rxN := by simp only [rxN] at *; omega
    simp only [synced.head]
    rw [update_of_ne apart]
    exact synced.empty j (by simp only at from_; omega) below

theorem Synced.waiting_of_full (synced : Synced ring c t .waiting)
    (full : (ring.rx ring.rxLast).dd = true) : c < ring.received := by
  rcases Nat.lt_or_ge c ring.received with below | past
  · exact below
  · have empty := synced.empty c past (by simp [Stage.gone, rxN])
    rw [synced.cursor, empty] at full
    cases full

theorem Synced.empty_of_released (synced : Synced ring c t .released) :
    (ring.rx ring.rxLast).dd = false := by
  have room := synced.room
  have tail_le := synced.tail_le
  have empty := synced.empty (c + rxN) (by omega) (by simp [Stage.gone])
  rwa [Nat.add_mod_right, ← synced.cursor] at empty

theorem Synced.handle (synced : Synced ring c t .waiting) (below : c < ring.received) :
    Synced (ring.handle (c % rxN)) c t .passed := by
  have frame := synced.full c (Nat.le_refl c) below
  refine ⟨synced.cursor, synced.head, synced.tail, synced.tail_le, synced.room, below, ?_,
    synced.full, synced.empty⟩
  simp only [RxRing.handle, synced.handled, frame, Stage.taken, List.range_succ, Nat.add_zero]

theorem Synced.clear (synced : Synced ring c t .passed) :
    Synced (ring.clear (c % rxN)) c t .released := by
  have room := synced.room
  have tail_le := synced.tail_le
  refine ⟨synced.cursor, synced.head, synced.tail, tail_le, room, synced.pending,
    synced.handled, ?_, ?_⟩
  · intro j from_ below
    simp only [Stage.gone] at from_
    have later : j < ring.received := below
    have apart : j % rxN ≠ c % rxN := by simp only [rxN] at *; omega
    simp only [RxRing.clear, update_of_ne apart]
    exact synced.full j (by simp [Stage.gone]; omega) later
  · intro j from_ below
    have past : ring.received ≤ j := from_
    simp only [Stage.gone] at below
    by_cases same : j % rxN = c % rxN
    · simp only [RxRing.clear, same, update_self]
    · simp only [RxRing.clear, update_of_ne same]
      apply synced.empty j past
      -- The one further position is the entry that was just cleared.
      simp only [Stage.gone, rxN] at *
      omega

theorem Synced.advance (synced : Synced ring c t .released) :
    Synced (ring.advance (c % rxN)) (c + 1) t .waiting := by
  have tail_le := synced.tail_le
  have pending := synced.pending
  refine ⟨?_, synced.head, synced.tail, by omega, synced.room, pending, synced.handled,
    synced.full, synced.empty⟩
  simp only [RxRing.advance, rxN]
  omega

theorem Synced.writeTail (synced : Synced ring c t stage) (poll : Poll)
    (current : 0 < poll.processed → poll.lastRdt = (c + rxN - 1) % rxN) :
    ∃ tail, Synced (ring.writeTail poll) c tail stage := by
  unfold RxRing.writeTail
  by_cases some_ : 0 < poll.processed
  · rw [if_pos some_]
    refine ⟨c, synced.cursor, synced.head, current some_, Nat.le_refl c, ?_, synced.pending,
      synced.handled, synced.full, synced.empty⟩
    have room := synced.room
    have tail_le := synced.tail_le
    simp only
    omega
  · rw [if_neg some_]
    exact ⟨t, synced⟩

def OwnsRest (rest : Option Poll) (ring : RxRing) (c : Nat) (stage : Stage) : Prop :=
  match rest with
  | none => stage = .waiting
  | some poll => poll.Owns ring c stage

theorem Synced.e1000Poll (synced : Synced ring c t stage) (owns : poll.Owns ring c stage)
    (current : poll.TailCurrent ring) :
    ∃ c' t' stage', Synced (e1000Poll poll ring).1 c' t' stage' ∧
      OwnsRest (e1000Poll poll ring).2 (e1000Poll poll ring).1 c' stage' ∧
      ∀ rest, (e1000Poll poll ring).2 = some rest → poll.Recent c → rest.Recent c' := by
  obtain ⟨point, processed, lastRdt⟩ := poll
  -- One case for each point of the loop, in the order in which a frame goes through them.
  cases point with
  | test =>
    cases owns
    simp only [CatOs.E1000.e1000Poll]
    by_cases ready : processed < batchLimit ∧ (ring.rx ring.rxLast).dd
    · rw [if_pos ready]
      refine ⟨c, t, .waiting, synced, ⟨rfl, synced.cursor, synced.waiting_of_full ready.2⟩, ?_⟩
      rintro _ ⟨⟩ _
      trivial
    · rw [if_neg ready]
      refine ⟨c, t, .waiting, synced, rfl, ?_⟩
      rintro _ ⟨⟩ recent
      exact recent
  | handle i =>
    obtain ⟨rfl, rfl, below⟩ := owns
    refine ⟨c, t, .passed, synced.handle below, ⟨rfl, rfl⟩, ?_⟩
    rintro _ ⟨⟩ _
    trivial
  | clear i =>
    obtain ⟨rfl, rfl⟩ := owns
    refine ⟨c, t, .released, synced.clear, ⟨rfl, rfl⟩, ?_⟩
    rintro _ ⟨⟩ _
    trivial
  | advance i =>
    obtain ⟨rfl, rfl⟩ := owns
    refine ⟨c + 1, t, .waiting, synced.advance, rfl, ?_⟩
    rintro _ ⟨⟩ _
    -- The entry that was just left is the one before the new cursor.
    change c % rxN = (c + 1 + rxN - 1) % rxN
    simp only [rxN]
    omega
  | next i =>
    cases owns
    refine ⟨c, t, .waiting, synced, rfl, ?_⟩
    rintro _ ⟨⟩ recent _
    exact recent
  | finish =>
    cases owns
    have before : 0 < processed → lastRdt = (c + rxN - 1) % rxN := by
      intro some_
      have written : lastRdt = (ring.rxLast + rxN - 1) % rxN := current rfl some_
      rw [written, synced.cursor]
      simp only [rxN]
      omega
    obtain ⟨tail, written⟩ := synced.writeTail ⟨.finish, processed, lastRdt⟩ before
    refine ⟨c, tail, .waiting, written, rfl, ?_⟩
    rintro _ ⟨⟩

structure Idles (irq task : Poll) (c : Nat) : Prop where
  atAdvance : task.point = .advance (c % rxN)
  idle : irq.point = .test ∨ irq.point = .finish
  nothing : irq.processed = 0

def PollsAt (sys : RxSystem) (c : Nat) (stage : Stage) : Prop :=
  match sys.irq with
  | none => OwnsRest sys.task sys.ring c stage
  | some irq =>
    (irq.Owns sys.ring c stage ∧ irq.Recent c ∧ ∀ task, sys.task = some task → task.Between) ∨
      (stage = .released ∧ ∃ task, sys.task = some task ∧ Idles irq task c)

def RxInv (sys : RxSystem) : Prop :=
  ∃ c t stage, Synced sys.ring c t stage ∧ PollsAt sys c stage

/--
The steps under which polling is exact.

No interrupt lands between the test of a full entry and the clearing of its status.
The task does not write a tail from before the frames that an interrupt has processed since.
-/
def RxAllowed (input : RxInput) (sys : RxSystem) : Prop :=
  match input with
  | .arrive | .call => True
  | .interrupt => sys.irq = none → ∀ task, sys.task = some task →
      ∀ i, task.point ≠ .handle i ∧ task.point ≠ .clear i
  | .step => sys.irq = none → ∀ task, sys.task = some task → task.TailCurrent sys.ring

theorem Poll.Owns.arrive (owns : poll.Owns ring c stage) : poll.Owns ring.arrive c stage := by
  have more : ring.received ≤ ring.arrive.received := by
    unfold RxRing.arrive
    split
    · exact Nat.le_refl _
    · exact Nat.le_succ _
  obtain ⟨point, processed, lastRdt⟩ := poll
  cases point with
  | handle i => exact ⟨owns.1, owns.2.1, Nat.lt_of_lt_of_le owns.2.2 more⟩
  | test => exact owns
  | clear i => exact owns
  | advance i => exact owns
  | next i => exact owns
  | finish => exact owns

theorem Poll.Between.owns (between : poll.Between) : poll.Owns ring c .waiting := by
  obtain ⟨point, processed, lastRdt⟩ := poll
  cases point with
  | test => rfl
  | next i => rfl
  | finish => rfl
  | handle i | clear i | advance i => cases between

theorem Poll.Recent.tailCurrent (recent : poll.Recent c) (synced : Synced ring c t stage) :
    poll.TailCurrent ring := by
  intro finishing some_
  obtain ⟨point, processed, lastRdt⟩ := poll
  cases finishing
  have last : lastRdt = (c + rxN - 1) % rxN := recent some_
  change lastRdt = (ring.rxLast + rxN - 1) % rxN
  rw [last, synced.cursor]
  simp only [rxN]
  omega

theorem RxInv.arrive {sys : RxSystem} (inv : RxInv sys) : RxInv (rxStep .arrive sys) := by
  obtain ⟨c, t, stage, synced, polls⟩ := inv
  obtain ⟨ring, task, irq⟩ := sys
  refine ⟨c, t, stage, synced.arrive, ?_⟩
  cases irq with
  | none =>
    cases task with
    | none => exact polls
    | some task => exact Poll.Owns.arrive polls
  | some irq =>
    rcases polls with ⟨owns, recent, between⟩ | idles
    · exact .inl ⟨owns.arrive, recent, between⟩
    · exact .inr idles

theorem RxInv.call {sys : RxSystem} (inv : RxInv sys) : RxInv (rxStep .call sys) := by
  obtain ⟨c, t, stage, synced, polls⟩ := inv
  obtain ⟨ring, task, irq⟩ := sys
  cases task <;> cases irq
  case none.none => exact ⟨c, t, stage, synced, polls⟩
  all_goals exact ⟨c, t, stage, synced, polls⟩

theorem RxInv.interrupt {sys : RxSystem} (inv : RxInv sys) (may : RxAllowed .interrupt sys) :
    RxInv (rxStep .interrupt sys) := by
  obtain ⟨c, t, stage, synced, polls⟩ := inv
  obtain ⟨ring, task, irq⟩ := sys
  refine ⟨c, t, stage, ?_⟩
  cases irq with
  | some irq => exact ⟨synced, polls⟩
  | none =>
    refine ⟨synced, ?_⟩
    -- A new poll has processed nothing, so it has no tail to write.
    have recent : Poll.begin.Recent c := fun some_ => absurd some_ (Nat.lt_irrefl 0)
    cases task with
    | none => exact .inl ⟨polls, recent, fun task found => by cases found⟩
    | some task =>
      have clear := may rfl task rfl
      obtain ⟨point, processed, lastRdt⟩ := task
      cases point with
      | handle i => exact absurd rfl (clear i).1
      | clear i => exact absurd rfl (clear i).2
      | advance i =>
        obtain ⟨rfl, rfl⟩ := polls
        exact .inr ⟨rfl, _, rfl, rfl, .inl rfl, rfl⟩
      | test | next i | finish =>
        exact .inl ⟨polls, recent, fun task found => by cases found; trivial⟩

theorem RxInv.step {sys : RxSystem} (inv : RxInv sys) (may : RxAllowed .step sys) :
    RxInv (rxStep .step sys) := by
  obtain ⟨c, t, stage, synced, polls⟩ := inv
  obtain ⟨ring, task, irq⟩ := sys
  cases irq with
  | none =>
    cases task with
    | none => exact ⟨c, t, stage, synced, polls⟩
    | some task =>
      obtain ⟨c', t', stage', synced', rest, _⟩ := synced.e1000Poll polls (may rfl task rfl)
      exact ⟨c', t', stage', synced', rest⟩
  | some irq =>
    rcases polls with ⟨owns, recent, between⟩ | ⟨rfl, task, rfl, idles⟩
    · obtain ⟨c', t', stage', synced', rest, later⟩ :=
        synced.e1000Poll owns (recent.tailCurrent synced)
      refine ⟨c', t', stage', synced', ?_⟩
      simp only [rxStep, PollsAt]
      cases ended : (CatOs.E1000.e1000Poll irq ring).2 with
      | some irq' =>
        rw [ended] at rest
        exact .inl ⟨rest, later irq' ended recent, between⟩
      | none =>
        -- The task continues from between two frames, where the interrupt found it.
        rw [ended] at rest
        cases rest
        cases task with
        | none => rfl
        | some task => exact (between task rfl).owns
    · -- The entry at the cursor is empty, so the timer poll finds nothing to do.
      obtain ⟨point, processed, lastRdt⟩ := irq
      obtain ⟨atAdvance, idle, nothing⟩ := idles
      cases nothing
      rcases idle with testing | finishing
      · cases testing
        have empty : (ring.rx ring.rxLast).dd = false := synced.empty_of_released
        have stays : CatOs.E1000.e1000Poll ⟨.test, 0, lastRdt⟩ ring =
            (ring, some ⟨.finish, 0, lastRdt⟩) := by
          simp [CatOs.E1000.e1000Poll, empty]
        simp only [RxInv, rxStep, stays]
        exact ⟨c, t, .released, synced, .inr ⟨rfl, task, rfl, atAdvance, .inr rfl, rfl⟩⟩
      · cases finishing
        have ends : CatOs.E1000.e1000Poll ⟨.finish, 0, lastRdt⟩ ring = (ring, none) := by
          simp [CatOs.E1000.e1000Poll, RxRing.writeTail]
        simp only [RxInv, rxStep, ends]
        refine ⟨c, t, .released, synced, ?_⟩
        obtain ⟨point, _, _⟩ := task
        cases atAdvance
        exact ⟨rfl, rfl⟩

theorem rxInv_init : RxInv rxInit := by
  refine ⟨0, 0, .waiting, ⟨rfl, rfl, rfl, Nat.le_refl 0, ?_, Nat.le_refl 0, rfl, ?_, ?_⟩, rfl⟩
  · decide
  · intro j _ below
    cases below
  · intro j _ _
    rfl

theorem rxInv_run {sys : RxSystem} (run : Run rxStep RxAllowed rxInit sys) : RxInv sys := by
  refine run.invariant RxInv rxInv_init ?_
  intro input sys may inv
  cases input with
  | arrive => exact inv.arrive
  | call => exact inv.call
  | interrupt => exact inv.interrupt may
  | step => exact inv.step may

/--
Where interrupts keep off the cursor, each frame is passed on once, in the order of arrival.

Once all polls have finished, the cursor is at the oldest frame that is still waiting, and every
waiting frame is in its entry.
-/
theorem polling_passes_each_frame_once {sys : RxSystem} (run : Run rxStep RxAllowed rxInit sys) :
    sys.ring.handled = List.range sys.ring.handled.length ∧
      sys.ring.handled.length ≤ sys.ring.received ∧
      (sys.task = none → sys.irq = none →
        sys.ring.rxLast = sys.ring.handled.length % rxN ∧
          (∀ frame, sys.ring.handled.length ≤ frame → frame < sys.ring.received →
            sys.ring.rx (frame % rxN) = ⟨true, frame⟩) ∧
          ((sys.ring.rx sys.ring.rxLast).dd = true ↔
            sys.ring.handled.length < sys.ring.received)) := by
  obtain ⟨c, t, stage, synced, polls⟩ := rxInv_run run
  have count : sys.ring.handled.length = c + stage.taken := by
    rw [synced.handled, List.length_range]
  rw [count]
  refine ⟨synced.handled, synced.pending, fun noTask noIrq => ?_⟩
  obtain ⟨ring, task, irq⟩ := sys
  cases noTask
  cases noIrq
  cases polls
  refine ⟨synced.cursor, synced.full, synced.waiting_of_full, fun waiting => ?_⟩
  have full := synced.full c (Nat.le_refl c) waiting
  rw [synced.cursor, full]

def lateInterrupt : List RxInput :=
  [.arrive, .call, .step, .step, .step, .interrupt, .step, .step, .step]

/-- An interrupt after the clearing of the status passes no frame on twice. -/
theorem polling_passes_each_frame_once_late :
    (runInputs rxStep lateInterrupt rxInit).ring.handled =
      List.range (runInputs rxStep lateInterrupt rxInit).ring.handled.length := by
  refine (polling_passes_each_frame_once (Run.start.inputs lateInterrupt ?_)).1
  -- The task never reaches its tail, and the interrupt lands where it may.
  refine ⟨trivial, trivial, ?_, ?_, ?_, ?_, ?_, ?_, ?_, trivial⟩
  all_goals
    intro noIrq task found
    cases found
  case refine_4 => exact fun i => ⟨PollPoint.noConfusion, PollPoint.noConfusion⟩
  all_goals exact fun finishing => PollPoint.noConfusion finishing

def earlyInterrupt : List RxInput :=
  [.arrive, .arrive, .call, .step, .interrupt] ++ List.replicate 18 .step ++
    [.arrive, .call, .step, .step]

/-- An interrupt after the test repeats a frame and leaves the cursor behind a frame never seen. -/
theorem early_interrupt_repeats_frame :
    (runInputs rxStep earlyInterrupt rxInit).task = none ∧
      (runInputs rxStep earlyInterrupt rxInit).irq = none ∧
      (runInputs rxStep earlyInterrupt rxInit).ring.handled = [0, 1, 0] ∧
      (runInputs rxStep earlyInterrupt rxInit).ring.received = 3 ∧
      (runInputs rxStep earlyInterrupt rxInit).ring.rxLast = 1 := by
  decide

end CatOs.E1000
