import CatOs.Net.Tcp.Deadlines
import CatOs.Net.Tcp.OooStore

/-! How the slot of a connection that is opening or closing is reclaimed by the clock alone. -/

namespace CatOs.Tcp

def TcpState.isEnding : TcpState → Bool
  | .synReceived | .finWait1 | .finWait2 | .closing | .lastAck | .timeWait => true
  | _ => false

def TcpOp.isCall : TcpOp → Bool
  | .send _ | .recv _ | .close => true
  | _ => false

structure Round where
  calls : List (TcpEnv × TcpOp)
  tick : TcpEnv

def Round.before (round : Round) (io : TcpIo) : TcpIo := runInputs tcpStep round.calls io

def afterRounds (rounds : Nat → Round) (io : TcpIo) : Nat → TcpIo
  | 0 => io
  | n + 1 => tcpTickConn (rounds n).tick ((rounds n).before (afterRounds rounds io n))

def retryLimit (state : TcpState) : BitVec 8 :=
  if state = .synReceived then tcpRtoRetrySynrcvd else tcpRtoRetryData

def TcpConn.timer (c : TcpConn) : Word :=
  if c.state = .timeWait then c.twUntil else c.rtoDeadline

/--
A timer runs that releases the slot.

While only the peer's close is missing there may be nothing left to repeat, and then the timer
just stops.
-/
def Reclaimable (c : TcpConn) : Prop :=
  c.timer ≠ 0 ∧ (c.state = .finWait2 → c.snd.sndUsed ≠ 0 ∨ retryLimit c.state ≤ c.rtoAttempts)

instance (c : TcpConn) : Decidable (Reclaimable c) := inferInstanceAs (Decidable (_ ∧ _))

def RetryNonzero (ticks : Word) (c : TcpConn) : Prop :=
  c.used = true → expired ticks c.rtoDeadline = true → (tcpRtoRetry ticks c).rtoDeadline ≠ 0

def ticksUntil (ticks deadline : Word) : Nat :=
  if 0 ≤ (ticks - deadline).toInt then 0 else (deadline - ticks).toNat

def reclaimBound (ticks : Word) (c : TcpConn) : Nat :=
  ticksUntil ticks c.timer + 1 +
    tcpRtoMax.toNat * ((retryLimit c.state).toNat - c.rtoAttempts.toNat)

structure TimerView where
  used : Bool
  state : TcpState
  rtoDeadline : Word
  rtoAttempts : BitVec 8
  rtoBackoff : Fin 7
  rtoTicks : Word
  twUntil : Word
  sndUsed : Nat

def TcpConn.timerView (c : TcpConn) : TimerView :=
  { used := c.used, state := c.state, rtoDeadline := c.rtoDeadline, rtoAttempts := c.rtoAttempts
    rtoBackoff := c.rtoBackoff, rtoTicks := c.rtoTicks, twUntil := c.twUntil
    sndUsed := c.snd.sndUsed }

section Clock

variable {ticks deadline : Word}

theorem toInt_add_neg {passed : Word} {k : Nat} (ahead : ¬0 ≤ passed.toInt)
    (early : k < (-passed).toNat) : ¬0 ≤ (passed + lenWord k).toInt := by
  have bound := passed.isLt
  rw [BitVec.toInt_eq_toNat_cond] at ahead ⊢
  rw [BitVec.toNat_neg] at early
  rw [BitVec.toNat_add, lenWord, BitVec.toNat_ofNat]
  split at ahead <;> split <;> omega

theorem expired_after {k : Nat} (early : k < ticksUntil ticks deadline) :
    expired (ticks + lenWord k) deadline = false := by
  unfold ticksUntil at early
  split at early
  · omega
  rename_i ahead
  rw [expired, Bool.and_eq_false_iff]
  right
  rw [add_sub_right_comm]
  rw [← neg_sub] at early
  exact decide_eq_false (toInt_add_neg ahead early)

theorem expired_at (armed : deadline ≠ 0) :
    expired (ticks + lenWord (ticksUntil ticks deadline)) deadline = true := by
  have nonzero : decide (deadline ≠ 0) = true := decide_eq_true armed
  rw [expired, nonzero, Bool.true_and, decide_eq_true_iff]
  unfold ticksUntil
  split
  · rename_i passed
    have same : ticks + lenWord 0 = ticks := add_zero ticks
    rw [same]
    exact passed
  · have whole : lenWord (deadline - ticks).toNat = deadline - ticks := by
      rw [lenWord, BitVec.ofNat_toNat, BitVec.setWidth_eq]
    rw [whole, add_sub_cancel, sub_self]
    decide

theorem ticksUntil_le {delay : Word} (short : delay ≤ tcpRtoMax) (positive : delay ≠ 0) :
    ticksUntil (ticks + 1) (ticks + delay) + 1 ≤ tcpRtoMax.toNat := by
  have least : 1 ≤ delay.toNat := by
    rw [Nat.one_le_iff_ne_zero]
    intro zero
    exact positive (BitVec.eq_of_toNat_eq zero)
  have most : delay.toNat ≤ tcpRtoMax.toNat := short
  have max : tcpRtoMax.toNat = 240 := rfl
  unfold ticksUntil
  split
  · omega
  · rw [add_sub_add_left_eq_sub, BitVec.toNat_sub]
    have one : (1 : Word).toNat = 1 := rfl
    rw [one]
    omega

end Clock

section Calls

variable {io : TcpIo}

theorem timerView_call (ending : io.conn.state.isEnding = true) {input : TcpEnv × TcpOp}
    (call : input.2.isCall = true) : (tcpStep input io).conn.timerView = io.conn.timerView := by
  have open_ : io.conn.state ≠ .established := by
    intro here
    rw [here] at ending
    cases ending
  have waits : io.conn.state ≠ .closeWait := by
    intro here
    rw [here] at ending
    cases ending
  obtain ⟨env, op⟩ := input
  cases op with
  | send data =>
    show (tcpSend env io data).1.conn.timerView = _
    simp only [tcpSend, open_, ne_eq, not_false_eq_true, if_true]
    split <;> rfl
  | recv maxLen =>
    show (tcpRecv env io maxLen).1.conn.timerView = _
    rcases tcpRecv_conn env io maxLen with same | ⟨n, window, read⟩
    · rw [same]
    · rw [read]
      rfl
  | segment s => cases call
  | tick => cases call
  | close =>
    show (tcpClose env io).conn.timerView = _
    simp only [tcpClose, open_, waits, if_false]
    rfl

theorem timerView_before (ending : io.conn.state.isEnding = true) {round : Round}
    (calls : ∀ input ∈ round.calls, input.2.isCall = true) :
    (round.before io).conn.timerView = io.conn.timerView := by
  unfold Round.before
  generalize round.calls = inputs at calls
  induction inputs generalizing io with
  | nil => rfl
  | cons input rest ih =>
    have first := timerView_call ending (calls input List.mem_cons_self)
    have state : (tcpStep input io).conn.state = io.conn.state := congrArg TimerView.state first
    rw [runInputs, ih (by rw [state]; exact ending)
      fun other member => calls other (List.mem_cons_of_mem _ member), first]

end Calls

section Tick

variable {env : TcpEnv} {io : TcpIo}

theorem timerView_tcpPersistTick : (tcpPersistTick env io).conn.timerView = io.conn.timerView := by
  simp only [tcpPersistTick]
  split
  · rfl
  split
  · rfl
  · obtain ⟨window, sent⟩ := tcpPutPkt_conn env io (tcpFlagAck ||| tcpFlagPsh) io.conn.sndUna
      io.conn.rcvNxt (io.conn.snd.sndb.read 0 1)
    rw [TcpIo.modify_conn, sent]
    rfl

theorem timerView_tcpRtoRetry {c d : TcpConn} (same : c.timerView = d.timerView) (ticks : Word) :
    (tcpRtoRetry ticks c).timerView = (tcpRtoRetry ticks d).timerView := by
  have reads : ∀ e : TcpConn, (tcpRtoRetry ticks e).timerView =
      { e.timerView with
        rtoDeadline := ticks + rtoNow { zeroConn with
          rtoTicks := e.timerView.rtoTicks, rtoBackoff := nextBackoff e.timerView.rtoBackoff }
        rtoAttempts := e.timerView.rtoAttempts + 1
        rtoBackoff := nextBackoff e.timerView.rtoBackoff } := fun _ => rfl
  rw [reads, reads, same]

theorem timerView_retry (flags : Flags) (seq : Word) :
    ((tcpPutCtl env io flags seq).modify (tcpRtoRetry env.ticks)).conn.timerView =
      (tcpRtoRetry env.ticks io.conn).timerView := by
  obtain ⟨window, sent⟩ := tcpPutPkt_conn env io flags seq io.conn.rcvNxt []
  have put : (tcpPutCtl env io flags seq).conn = { io.conn with advWin := window } := sent
  rw [TcpIo.modify_conn, put]
  rfl

theorem timerView_tcpRtoData :
    (tcpRtoData env io).conn.timerView = (tcpRtoRetry env.ticks io.conn).timerView := by
  simp only [tcpRtoData]
  generalize (if io.conn.inFlight.toNat > io.conn.snd.sndUsed then io.conn.snd.sndUsed
    else io.conn.inFlight.toNat) = len
  obtain ⟨window, sent⟩ := tcpPutPkt_conn env (io.modify (noteTimeout len))
    (tcpFlagAck ||| tcpFlagPsh) io.conn.sndUna io.conn.rcvNxt (io.conn.snd.sndb.read 0 len)
  have noted : (noteTimeout len io.conn).timerView = io.conn.timerView := by
    have cleared : (tcpTxClearMarks io.conn).timerView = io.conn.timerView := rfl
    rw [← cleared]
    rfl
  rw [TcpIo.modify_conn, sent]
  exact timerView_tcpRtoRetry noted env.ticks

inductive Ticks (ticks : Word) (c next : TcpConn) : Prop
  /-- No timer has run out. -/
  | waits (quiet : expired ticks c.timer = false) (same : next.timerView = c.timerView)
  /-- The wait is over. -/
  | leaves (state : c.state = .timeWait) (passed : expired ticks c.twUntil = true)
      (free : next.used = false)
  /-- Too many retransmissions have gone unanswered. -/
  | givesUp (state : c.state ≠ .timeWait) (passed : expired ticks c.rtoDeadline = true)
      (many : retryLimit c.state ≤ c.rtoAttempts) (free : next.used = false)
  /-- A segment is repeated. -/
  | retries (state : c.state ≠ .timeWait) (passed : expired ticks c.rtoDeadline = true)
      (few : c.rtoAttempts < retryLimit c.state) (left : c.state = .finWait2 → c.snd.sndUsed ≠ 0)
      (retried : next.timerView = (tcpRtoRetry ticks c).timerView)
  /-- There is nothing to repeat, and the timer stops. -/
  | stops (state : c.state = .finWait2) (passed : expired ticks c.rtoDeadline = true)
      (few : c.rtoAttempts < retryLimit c.state) (left : c.snd.sndUsed = 0) (stopped : next.timerView = { c.timerView with rtoDeadline := 0 })

theorem ticks_tcpTickConn (used : io.conn.used = true) (ending : io.conn.state.isEnding = true) :
    Ticks env.ticks io.conn (tcpTickConn env io).conn := by
  simp only [tcpTickConn, used, Bool.not_true, Bool.false_eq_true, if_false]
  by_cases waiting : io.conn.state = .timeWait
  · rw [if_pos waiting]
    split
    · rename_i passed
      exact .leaves waiting passed rfl
    · rename_i quiet
      refine .waits ?_ rfl
      rw [TcpConn.timer, if_pos waiting]
      exact Bool.not_eq_true _ ▸ quiet
  rw [if_neg waiting]
  have tested : tcpTestTick env io = io := by
    have open_ : io.conn.state ≠ .established := by
      intro here
      rw [here] at ending
      cases ending
    simp only [tcpTestTick, open_, false_and, if_false]
  rw [tested]
  -- The probe of a closed window comes first, and changes none of what follows.
  have view : (tcpPersistTick env io).conn.timerView = io.conn.timerView := timerView_tcpPersistTick
  generalize tcpPersistTick env io = probed at view
  have state : probed.conn.state = io.conn.state := congrArg TimerView.state view
  have deadline : probed.conn.rtoDeadline = io.conn.rtoDeadline :=
    congrArg TimerView.rtoDeadline view
  have attempts : probed.conn.rtoAttempts = io.conn.rtoAttempts :=
    congrArg TimerView.rtoAttempts view
  have unacked : probed.conn.snd.sndUsed = io.conn.snd.sndUsed := congrArg TimerView.sndUsed view
  have retried := timerView_tcpRtoRetry view env.ticks
  have limit : (if io.conn.state = .synReceived then tcpRtoRetrySynrcvd else tcpRtoRetryData) =
    retryLimit io.conn.state := rfl
  simp only [tcpRtoTick, state, deadline, attempts, unacked, limit]
  by_cases passed : expired env.ticks io.conn.rtoDeadline = true
  swap
  · rw [if_pos (by simpa using passed)]
    refine .waits ?_ view
    rw [TcpConn.timer, if_neg waiting]
    exact Bool.not_eq_true _ ▸ passed
  rw [if_neg (by simpa using passed)]
  by_cases many : io.conn.rtoAttempts ≥ retryLimit io.conn.state
  · rw [if_pos many]
    exact .givesUp waiting passed many rfl
  rw [if_neg many]
  have few : io.conn.rtoAttempts < retryLimit io.conn.state := BitVec.not_le.mp many
  by_cases opening : io.conn.state = .synReceived
  · rw [if_pos opening]
    exact .retries waiting passed few (fun other => by rw [opening] at other; cases other)
      ((timerView_retry ..).trans retried)
  rw [if_neg opening]
  by_cases closing : io.conn.state = .lastAck ∨
      ((io.conn.state = .finWait1 ∨ io.conn.state = .closing) ∧ io.conn.snd.sndUsed = 0)
  · rw [if_pos closing]
    refine .retries waiting passed few (fun other => ?_) ((timerView_retry ..).trans retried)
    rw [other] at closing
    simp at closing
  rw [if_neg closing]
  by_cases left : io.conn.snd.sndUsed ≠ 0
  · rw [if_pos left]
    exact .retries waiting passed few (fun _ => left) (timerView_tcpRtoData.trans retried)
  · rw [if_neg left]
    rw [not_not] at left
    -- Every other state would have repeated its close.
    have here : io.conn.state = .finWait2 := by
      rw [left] at closing
      cases state' : io.conn.state <;> rw [state'] at ending closing waiting opening <;>
        simp [TcpState.isEnding] at ending closing waiting opening ⊢
    refine .stops here passed few left ?_
    have stopped : ∀ c : TcpConn, TcpConn.timerView { c with rtoDeadline := 0 } =
        { c.timerView with rtoDeadline := 0 } := fun _ => rfl
    rw [TcpIo.modify_conn, stopped, view]

theorem TcpConn.timer_eq {c d : TcpConn} (same : c.timerView = d.timerView) :
    c.timer = d.timer := by
  have reads : ∀ e : TcpConn, e.timer =
      if e.timerView.state = .timeWait then e.timerView.twUntil else e.timerView.rtoDeadline :=
    fun _ => rfl
  rw [reads, reads, same]

theorem reclaimable_congr {c d : TcpConn} (same : c.timerView = d.timerView) : Reclaimable c ↔ Reclaimable d := by
  have state : c.state = d.state := congrArg TimerView.state same
  have attempts : c.rtoAttempts = d.rtoAttempts := congrArg TimerView.rtoAttempts same
  have left : c.snd.sndUsed = d.snd.sndUsed := congrArg TimerView.sndUsed same
  rw [Reclaimable, Reclaimable, TcpConn.timer_eq same, state, attempts, left]

theorem Ticks.congr {ticks : Word} {c d next : TcpConn} (same : c.timerView = d.timerView)
    (effect : Ticks ticks c next) : Ticks ticks d next := by
  have state : c.state = d.state := congrArg TimerView.state same
  have deadline : c.rtoDeadline = d.rtoDeadline := congrArg TimerView.rtoDeadline same
  have waiting : c.twUntil = d.twUntil := congrArg TimerView.twUntil same
  have attempts : c.rtoAttempts = d.rtoAttempts := congrArg TimerView.rtoAttempts same
  have left : c.snd.sndUsed = d.snd.sndUsed := congrArg TimerView.sndUsed same
  have retried := timerView_tcpRtoRetry same ticks
  cases effect with
  | waits quiet kept =>
    refine .waits ?_ (kept.trans same)
    rw [← TcpConn.timer_eq same]
    exact quiet
  | leaves here passed free =>
    rw [state] at here
    rw [waiting] at passed
    exact .leaves here passed free
  | givesUp here passed many free =>
    rw [state] at here many
    rw [deadline] at passed
    rw [attempts] at many
    exact .givesUp here passed many free
  | retries here passed few some resent =>
    rw [state, left] at some
    rw [state] at here few
    rw [deadline] at passed
    rw [attempts] at few
    exact .retries here passed few some (resent.trans retried)
  | stops here passed few none stopped =>
    rw [state] at here few
    rw [deadline] at passed
    rw [attempts] at few
    rw [left] at none
    rw [same] at stopped
    exact .stops here passed few none stopped

end Tick

section Rounds

structure Quiet (rounds : Nat → Round) (ticks : Word) : Prop where
  calls : ∀ n, ∀ input ∈ (rounds n).calls, input.2.isCall = true
  clock : ∀ n, (rounds n).tick.ticks = ticks + lenWord n

variable {rounds : Nat → Round} {ticks : Word} (quiet : Quiet rounds ticks) {io : TcpIo}
include quiet

section Nat

variable {n : Nat} (used : (afterRounds rounds io n).conn.used = true)
  (ending : (afterRounds rounds io n).conn.state.isEnding = true)
include used ending

theorem ticks_afterRounds :
    Ticks (ticks + lenWord n) (afterRounds rounds io n).conn
      (afterRounds rounds io (n + 1)).conn := by
  have view := timerView_before ending (quiet.calls n)
  have used' : ((rounds n).before (afterRounds rounds io n)).conn.used = true :=
    (congrArg TimerView.used view).trans used
  have ending' : ((rounds n).before (afterRounds rounds io n)).conn.state.isEnding = true := by
    have state : ((rounds n).before (afterRounds rounds io n)).conn.state =
      (afterRounds rounds io n).conn.state := congrArg TimerView.state view
    rw [state]
    exact ending
  have effect := @ticks_tcpTickConn (rounds n).tick _ used' ending'
  rw [quiet.clock n] at effect
  exact effect.congr view

theorem waits_afterRounds {k : Nat}
    (early : k ≤ ticksUntil (ticks + lenWord n) (afterRounds rounds io n).conn.timer) :
    (afterRounds rounds io (n + k)).conn.timerView = (afterRounds rounds io n).conn.timerView := by
  induction k with
  | zero => rfl
  | succ k ih =>
    have same := ih (by omega)
    have state : (afterRounds rounds io (n + k)).conn.state = (afterRounds rounds io n).conn.state :=
      congrArg TimerView.state same
    have still := expired_after (Nat.lt_of_succ_le early)
    rw [add_assoc, lenWord, lenWord, ← BitVec.ofNat_add] at still
    rw [← TcpConn.timer_eq same] at still
    have effect := ticks_afterRounds quiet ((congrArg TimerView.used same).trans used)
      (by rw [state]; exact ending)
    -- Everything else a tick can do needs a timer that has run out.
    have passes : ∀ deadline, (afterRounds rounds io (n + k)).conn.timer = deadline →
        expired (ticks + lenWord (n + k)) deadline ≠ true := by
      intro deadline here passed
      rw [← here] at passed
      exact Bool.noConfusion (still.symm.trans passed)
    cases effect with
    | waits _ kept => exact kept.trans same
    | leaves here passed _ => exact absurd passed (passes _ (if_pos here))
    | givesUp here passed | retries here passed => exact absurd passed (passes _ (if_neg here))
    | stops here passed =>
      exact absurd passed (passes _ (if_neg (by rw [here]; decide)))

theorem fires_afterRounds (armed : (afterRounds rounds io n).conn.timer ≠ 0) :
    let last := n + ticksUntil (ticks + lenWord n) (afterRounds rounds io n).conn.timer
    expired (ticks + lenWord last) (afterRounds rounds io n).conn.timer = true ∧
      (afterRounds rounds io last).conn.timerView = (afterRounds rounds io n).conn.timerView ∧
      Ticks (ticks + lenWord last) (afterRounds rounds io n).conn
        (afterRounds rounds io (last + 1)).conn := by
  intro last
  have same : (afterRounds rounds io last).conn.timerView =
    (afterRounds rounds io n).conn.timerView :=
    waits_afterRounds quiet used ending (Nat.le_refl _)
  have state : (afterRounds rounds io last).conn.state = (afterRounds rounds io n).conn.state :=
    congrArg TimerView.state same
  have effect := ticks_afterRounds quiet ((congrArg TimerView.used same).trans used)
    (by rw [state]; exact ending)
  refine ⟨?_, same, effect.congr same⟩
  have passed := @expired_at (ticks + lenWord n) _ armed
  rw [add_assoc, lenWord, lenWord, ← BitVec.ofNat_add] at passed
  exact passed

theorem unreclaimable_step (stuck : ¬Reclaimable (afterRounds rounds io n).conn) :
    (afterRounds rounds io (n + 1)).conn.used = true ∧
      (afterRounds rounds io (n + 1)).conn.state.isEnding = true ∧
      ¬Reclaimable (afterRounds rounds io (n + 1)).conn := by
  have effect := ticks_afterRounds quiet used ending
  generalize (afterRounds rounds io n).conn = c at used ending stuck effect
  generalize (afterRounds rounds io (n + 1)).conn = next at effect
  have armed : ∀ {now deadline : Word}, expired now deadline = true → deadline ≠ 0 := by
    intro now deadline passed zero
    rw [zero] at passed
    simp [expired] at passed
  cases effect with
  | waits _ kept =>
    have state : next.state = c.state := congrArg TimerView.state kept
    rw [reclaimable_congr kept, state]
    exact ⟨(congrArg TimerView.used kept).trans used, ending, stuck⟩
  | leaves here passed _ =>
    refine absurd ⟨?_, ?_⟩ stuck
    · rw [TcpConn.timer, if_pos here]
      exact armed passed
    · rw [here]
      intro other
      cases other
  | givesUp here passed many _ =>
    refine absurd ⟨?_, fun _ => .inr many⟩ stuck
    rw [TcpConn.timer, if_neg here]
    exact armed passed
  | retries here passed few some _ =>
    refine absurd ⟨?_, fun state => .inl (some state)⟩ stuck
    rw [TcpConn.timer, if_neg here]
    exact armed passed
  | stops here passed few none stopped =>
    have state : next.state = .finWait2 := (congrArg TimerView.state stopped).trans here
    have deadline : next.rtoDeadline = 0 := congrArg TimerView.rtoDeadline stopped
    refine ⟨(congrArg TimerView.used stopped).trans used, by rw [state]; rfl, ?_⟩
    intro running
    apply running.1
    rw [TcpConn.timer, state, deadline]
    rfl

end Nat

theorem unreclaimable_afterRounds (used : io.conn.used = true) (ending : io.conn.state.isEnding = true)
    (stuck : ¬Reclaimable io.conn) (n : Nat) : (afterRounds rounds io n).conn.used = true := by
  have always : (afterRounds rounds io n).conn.used = true ∧
      (afterRounds rounds io n).conn.state.isEnding = true ∧
      ¬Reclaimable (afterRounds rounds io n).conn := by
    induction n with
    | zero => exact ⟨used, ending, stuck⟩
    | succ n ih => exact unreclaimable_step quiet ih.1 ih.2.1 ih.2.2
  exact always.1

/-- A timer that runs out releases the slot, or runs once more after a retransmission. -/
theorem reclaimable_fires {n : Nat} (used : (afterRounds rounds io n).conn.used = true)
    (ending : (afterRounds rounds io n).conn.state.isEnding = true)
    (running : Reclaimable (afterRounds rounds io n).conn) {last : Nat}
    (when : last = n + ticksUntil (ticks + lenWord n) (afterRounds rounds io n).conn.timer)
    (nonzero : RetryNonzero (ticks + lenWord last)
      ((rounds last).before (afterRounds rounds io last)).conn) :
    (afterRounds rounds io (last + 1)).conn.used = false ∨
      ((afterRounds rounds io n).conn.rtoAttempts <
          retryLimit (afterRounds rounds io n).conn.state ∧
        (afterRounds rounds io (last + 1)).conn.used = true ∧
        (afterRounds rounds io (last + 1)).conn.state = (afterRounds rounds io n).conn.state ∧
        Reclaimable (afterRounds rounds io (last + 1)).conn ∧
        (afterRounds rounds io (last + 1)).conn.rtoAttempts =
          (afterRounds rounds io n).conn.rtoAttempts + 1 ∧
        ticksUntil (ticks + lenWord (last + 1)) (afterRounds rounds io (last + 1)).conn.timer + 1 ≤
          tcpRtoMax.toNat) := by
  obtain ⟨passed, same, effect⟩ := fires_afterRounds quiet used ending running.1
  rw [← when] at passed same effect
  -- The tick finds the timers as they were before the wait.
  have found : ((rounds last).before (afterRounds rounds io last)).conn.timerView =
      (afterRounds rounds io n).conn.timerView := by
    have state : (afterRounds rounds io last).conn.state = (afterRounds rounds io n).conn.state :=
      congrArg TimerView.state same
    rw [timerView_before (by rw [state]; exact ending) (quiet.calls last), same]
  generalize ((rounds last).before (afterRounds rounds io last)).conn = tick at nonzero found
  generalize (afterRounds rounds io n).conn = c at used ending running passed effect found
  generalize (afterRounds rounds io (last + 1)).conn = next at effect
  cases effect with
  | waits still _ => exact Bool.noConfusion (still.symm.trans passed)
  | leaves _ _ free | givesUp _ _ _ free => exact .inl free
  | stops here _ few none _ =>
    rcases running.2 here with some | many
    · exact absurd none some
    · exact absurd many (BitVec.not_le.mpr few)
  | retries here ran few some retried =>
    have state : next.state = c.state := congrArg TimerView.state retried
    have deadline : next.rtoDeadline = (tcpRtoRetry (ticks + lenWord last) c).rtoDeadline :=
      congrArg TimerView.rtoDeadline retried
    have timer : next.timer = (tcpRtoRetry (ticks + lenWord last) c).rtoDeadline := by
      rw [TcpConn.timer, state, if_neg here, deadline]
    have armed : next.timer ≠ 0 := by
      have again : (tcpRtoRetry (ticks + lenWord last) tick).rtoDeadline =
          (tcpRtoRetry (ticks + lenWord last) c).rtoDeadline :=
        congrArg TimerView.rtoDeadline (timerView_tcpRtoRetry found _)
      have before : tick.rtoDeadline = c.rtoDeadline := congrArg TimerView.rtoDeadline found
      rw [timer, ← again]
      exact nonzero ((congrArg TimerView.used found).trans used) (by rw [before]; exact ran)
    refine .inr ⟨few, (congrArg TimerView.used retried).trans used, state, ⟨armed, ?_⟩,
      congrArg TimerView.rtoAttempts retried, ?_⟩
    · intro waiting
      have left : next.snd.sndUsed = c.snd.sndUsed := congrArg TimerView.sndUsed retried
      rw [left]
      exact .inl (some (state.symm.trans waiting))
    · obtain ⟨least, most⟩ := rtoNow_bounds { c with
        rtoBackoff := nextBackoff c.rtoBackoff, rtoAttempts := c.rtoAttempts + 1 }
      have positive : rtoNow { c with
          rtoBackoff := nextBackoff c.rtoBackoff, rtoAttempts := c.rtoAttempts + 1 } ≠ 0 := by
        intro zero
        rw [zero] at least
        exact absurd least (by decide)
      have next_ : ticks + lenWord (last + 1) = ticks + lenWord last + 1 := by
        rw [add_assoc, lenWord, lenWord, BitVec.ofNat_add]
        rfl
      rw [timer, next_]
      exact ticksUntil_le most positive

/--
A running timer releases the slot.

The induction is on the retransmissions that are left; each of them is at most the longest
timeout after the one before.
-/
theorem reclaimable_afterRounds {limit : Nat}
    (nonzero : ∀ n < limit, RetryNonzero (ticks + lenWord n)
      ((rounds n).before (afterRounds rounds io n)).conn) (left n : Nat)
    (used : (afterRounds rounds io n).conn.used = true)
    (ending : (afterRounds rounds io n).conn.state.isEnding = true)
    (running : Reclaimable (afterRounds rounds io n).conn)
    (remaining : (retryLimit (afterRounds rounds io n).conn.state).toNat -
      (afterRounds rounds io n).conn.rtoAttempts.toNat = left)
    (bound : n + (ticksUntil (ticks + lenWord n) (afterRounds rounds io n).conn.timer + 1 +
      tcpRtoMax.toNat * left) ≤ limit) :
    ∃ last ≤ limit, (afterRounds rounds io last).conn.used = false := by
  induction left generalizing n with
  | zero =>
    rcases reclaimable_fires quiet used ending running rfl (nonzero _ (by omega)) with free | ⟨few, -⟩
    · exact ⟨_, by omega, free⟩
    · have fewer : (afterRounds rounds io n).conn.rtoAttempts.toNat <
        (retryLimit (afterRounds rounds io n).conn.state).toNat := few
      omega
  | succ left ih =>
    rw [Nat.mul_succ] at bound
    rcases reclaimable_fires quiet used ending running rfl (nonzero _ (by omega)) with
      free | ⟨few, used', state, running', attempts, soon⟩
    · exact ⟨_, by omega, free⟩
    · have fewer : (afterRounds rounds io n).conn.rtoAttempts.toNat <
        (retryLimit (afterRounds rounds io n).conn.state).toNat := few
      have small : (retryLimit (afterRounds rounds io n).conn.state).toNat ≤ 5 := by
        unfold retryLimit
        split <;> decide
      refine ih _ used' (by rw [state]; exact ending) running' ?_ (by omega)
      rw [state, attempts, BitVec.toNat_add]
      have one : (1 : BitVec 8).toNat = 1 := rfl
      rw [one]
      omega

end Rounds

/--
A connection that is opening or closing gives its slot back exactly if one of its timers runs.

Nothing but the clock has to happen, whatever the application calls and whichever transmissions
fail. Once our own close has been acknowledged no timer runs any more, and the peer alone decides
how long the slot stays taken.
-/
theorem slot_reclaimed_iff {rounds : Nat → Round} {ticks : Word} (quiet : Quiet rounds ticks)
    {io : TcpIo} (used : io.conn.used = true) (ending : io.conn.state.isEnding = true)
    (nonzero : ∀ n < reclaimBound ticks io.conn, RetryNonzero (ticks + lenWord n)
      ((rounds n).before (afterRounds rounds io n)).conn) :
    (∃ n ≤ reclaimBound ticks io.conn, (afterRounds rounds io n).conn.used = false) ↔
      Reclaimable io.conn := by
  constructor
  · intro released
    by_contra stuck
    obtain ⟨n, -, free⟩ := released
    exact Bool.noConfusion ((unreclaimable_afterRounds quiet used ending stuck n).symm.trans free)
  · intro running
    refine reclaimable_afterRounds quiet nonzero _ 0 used ending running rfl ?_
    have now : ticks + lenWord 0 = ticks := add_zero ticks
    rw [now, Nat.zero_add]
    exact Nat.le_refl _

/-- A request that is never completed gives its slot back, even if no reply gets out. -/
theorem slot_reclaimed_iff_request :
    let env : TcpEnv := { ticks := 5, outcome := fun _ => .noFrame }
    let io := tcpSynAccept env (plainIn tcpFlagSyn 100 0 500) 1 7 zeroConn
    let rounds (n : Nat) : Round :=
      { calls := [], tick := { ticks := 6 + lenWord n, outcome := fun _ => .noFrame } }
    ∃ n ≤ 750, (afterRounds rounds io n).conn.used = false := by
  intro env io rounds
  have bound : reclaimBound 6 io.conn = 750 := by decide
  have quiet : Quiet rounds 6 :=
    { calls := fun _ _ none => absurd none List.not_mem_nil, clock := fun _ => rfl }
  have nonzero : ∀ n < reclaimBound 6 io.conn, RetryNonzero (6 + lenWord n)
      ((rounds n).before (afterRounds rounds io n)).conn := by
    intro n early _ _
    rw [bound] at early
    -- The clock is far from the end of its numbers.
    have clock : DeadlinesNonzero (6 + lenWord n) := by
      left
      show (6 + lenWord n).toNat < (-tcpRtoMax).toNat
      have limit : (-tcpRtoMax).toNat = 4294967056 := by decide
      have six : (6 : Word).toNat = 6 := rfl
      rw [limit, BitVec.toNat_add, six, lenWord, BitVec.toNat_ofNat]
      omega
    exact rtoDeadline_tcpRtoRetry clock _
  have reclaimed := (slot_reclaimed_iff quiet (by decide) (by decide)
    nonzero).mpr (by decide)
  rw [bound] at reclaimed
  exact reclaimed

/--
Two closed connections that never give their slots back.

One waits for the peer's close, which never comes; the other has repeated the acknowledgement of
the peer's close at the very segment that acknowledged its own.
-/
theorem closed_slot_kept :
    let env : TcpEnv := { ticks := 5, outcome := fun _ => .sent }
    let opened := tcpStep (env, .segment (plainIn tcpFlagAck 101 8 500))
      (tcpSynAccept env (plainIn tcpFlagSyn 100 0 500) 1 7 zeroConn)
    let waiting := runInputs tcpStep
      [(env, .close), (env, .segment (plainIn tcpFlagAck 101 9 500))] opened
    let repeated := runInputs tcpStep
      [(env, .segment (plainIn tcpFlagFinack 101 8 500)),
        (env, .segment (plainIn tcpFlagFinack 101 9 500))] opened
    waiting.conn.state = .finWait2 ∧ repeated.conn.state = .lastAck ∧
      ∀ rounds ticks, Quiet rounds ticks → ∀ n,
        (afterRounds rounds waiting n).conn.used = true ∧
          (afterRounds rounds repeated n).conn.used = true := by
  intro env opened waiting repeated
  refine ⟨by decide, by decide, fun rounds ticks quiet n => ⟨?_, ?_⟩⟩
  · exact unreclaimable_afterRounds quiet (by decide) (by decide) (by decide) n
  · exact unreclaimable_afterRounds quiet (by decide) (by decide) (by decide) n

end CatOs.Tcp
