import CatOs.Lib.Count
import CatOs.Net.HandleRun

/-! Readiness: what polling a stream socket reports, and what its operations then do. -/

namespace CatOs.Net

open CatOs.Tcp

def netPollin : Half := 0x001

def netPollout : Half := 0x004

def netPollerr : Half := 0x008

def netPollhup : Half := 0x010

def netPollnval : Half := 0x020

def pollConn (events : Half) (c : TcpConn) : Half :=
  if c.dead then netPollerr ||| netPollhup
  else if !c.used ∨ c.state = .closed then netPollhup
  else
    let readable : Half :=
      if hasFlag events netPollin ∧ (c.rx.rxn ≠ 0 ∨ c.state = .closeWait ∨ c.state = .lastAck ∨
          c.state = .timeWait) then netPollin else 0
    let writable : Half :=
      if hasFlag events netPollout ∧ c.state = .established ∧ c.snd.sndUsed < tcpBufSize then
        netPollout else 0
    readable ||| writable

def tcpSocketPoll (h : Nat) (events : Half) (n : NetSocks) : Half :=
  let s := n.tcpHandles h
  if s.type ≠ .tcpListen ∧ s.type ≠ .tcpEstab then netPollnval
  else
    match s.conn with
    | none => netPollerr ||| netPollhup
    | some i =>
      let c := n.table.conns i
      if s.type = .tcpListen then
        if c.used ∧ c.state = .listen ∧ hasFlag events netPollin ∧
            tcpPendingCount n.table c.lport ≠ 0 then netPollin else 0
      else pollConn events c

section Connections

variable {c : TcpConn} {events : Half}

theorem pollConn_open (alive : c.dead = false) (used : c.used = true) (opened : c.state ≠ .closed) :
    pollConn events c =
      (if hasFlag events netPollin ∧ (c.rx.rxn ≠ 0 ∨ c.state = .closeWait ∨ c.state = .lastAck ∨
        c.state = .timeWait) then netPollin else 0) |||
      (if hasFlag events netPollout ∧ c.state = .established ∧ c.snd.sndUsed < tcpBufSize then
        netPollout else 0) := by
  simp only [pollConn, alive, used, opened, Bool.not_true, Bool.false_eq_true, or_self, if_false]

/-- One of two flags is reported exactly if its own condition holds. -/
theorem hasFlag_ite_or {first second flag : Half} (own : hasFlag first flag = true)
    (other : hasFlag second flag = false) (ready more : Prop) [Decidable ready] [Decidable more] :
    hasFlag ((if ready then first else 0) ||| if more then second else 0) flag = true ↔ ready := by
  have none : hasFlag (0 : Half) flag = false := by simp [hasFlag]
  rw [hasFlag_or]
  by_cases ready <;> by_cases more <;> simp_all

theorem pollConn_readable (alive : c.dead = false) (used : c.used = true)
    (opened : c.state ≠ .closed) (asked : hasFlag events netPollin = true) :
    hasFlag (pollConn events c) netPollin = true ↔
      c.rx.rxn ≠ 0 ∨ c.state = .closeWait ∨ c.state = .lastAck ∨ c.state = .timeWait := by
  rw [pollConn_open alive used opened, hasFlag_ite_or (by decide) (by decide), and_iff_right asked]

theorem pollConn_writable (alive : c.dead = false) (used : c.used = true)
    (opened : c.state ≠ .closed) (asked : hasFlag events netPollout = true) :
    hasFlag (pollConn events c) netPollout = true ↔
      c.state = .established ∧ c.snd.sndUsed < tcpBufSize := by
  rw [pollConn_open alive used opened, BitVec.or_comm, hasFlag_ite_or (by decide) (by decide),
    and_iff_right asked]

theorem tcpRecv_blocks (env : TcpEnv) {io : TcpIo} (alive : io.conn.dead = false) (maxLen : Nat) :
    (tcpRecv env io maxLen).2 ≠ -1 ↔ io.conn.rx.rxn ≠ 0 ∨ io.conn.state = .closeWait ∨
      io.conn.state = .lastAck ∨ io.conn.state = .timeWait := by
  simp only [tcpRecv, alive, Bool.false_eq_true, if_false]
  by_cases empty : io.conn.rx.rxn = 0
  · -- Nothing is buffered, so that the state decides between the end and a wait.
    rw [if_pos empty]
    by_cases ended : io.conn.state = .closeWait ∨ io.conn.state = .lastAck ∨
        io.conn.state = .timeWait
    · rw [if_pos ended]
      simp only [empty, ended]
      decide
    · rw [if_neg ended]
      simp only [empty, ended]
      decide
  · rw [if_neg empty]
    simp only [ne_eq, empty, not_false_eq_true, true_or, iff_true]
    omega

theorem tcpSend_takes (env : TcpEnv) {io : TcpIo} (alive : io.conn.dead = false)
    {data : List UInt8} (offers : data ≠ []) :
    1 ≤ (tcpSend env io data).2 ↔
      io.conn.state = .established ∧ io.conn.snd.sndUsed < tcpBufSize := by
  have offered : data.length ≠ 0 := fun zero => offers (List.length_eq_zero_iff.mp zero)
  have bounded := io.conn.snd.sndUsed_le
  simp only [tcpSend, alive, Bool.false_eq_true, if_false, offered]
  by_cases established : io.conn.state = .established
  · rw [if_neg (not_not_intro established)]
    -- What is taken is cut to the room that is left, and by nothing else to zero.
    have full : sendLen io.conn data.length = 0 ↔ ¬io.conn.snd.sndUsed < tcpBufSize := by
      simp only [sendLen]
      split <;> split <;> omega
    by_cases none : sendLen io.conn data.length = 0
    · rw [if_pos none]
      simp only [established, full.mp none, and_false, iff_false]
      decide
    · rw [if_neg none]
      simp only [established, true_and]
      have room : io.conn.snd.sndUsed < tcpBufSize := by
        by_contra filled
        exact none (full.mpr filled)
      simp only [room, iff_true]
      omega
  · rw [if_pos established]
    simp only [established, false_and, iff_false]
    decide

end Connections

section Listeners

variable {n : NetSocks}

def Queued (n : NetSocks) (port : Half) (state : TcpState) (i : Nat) : Prop :=
  (n.table.conns i).used = true ∧ (n.table.conns i).accepted = false ∧
    (n.table.conns i).lport = port ∧ (n.table.conns i).state = state

def SomeQueued (n : NetSocks) (port : Half) (state : TcpState) : Prop :=
  ∃ i < tcpMaxConns, Queued n port state i

theorem tcpPendingCount_ne_zero (port : Half) :
    tcpPendingCount n.table port ≠ 0 ↔
      SomeQueued n port .synReceived ∨ SomeQueued n port .established := by
  have counts : tcpPendingCount n.table port = _ := forRange_count _ tcpMaxConns
  rw [counts, ne_eq, Nat.count_iff_forall_not]
  constructor
  · intro found
    push Not at found
    obtain ⟨i, within, used, unaccepted, here, state⟩ := found
    rw [Bool.not_eq_true'] at unaccepted
    rcases state with halfOpen | established
    · exact .inl ⟨i, within, used, unaccepted, here, halfOpen⟩
    · exact .inr ⟨i, within, used, unaccepted, here, established⟩
  · rintro (⟨i, within, used, unaccepted, here, state⟩ | ⟨i, within, used, unaccepted, here, state⟩)
      nobody
    · exact nobody i within ⟨used, by rw [unaccepted]; rfl, here, .inl state⟩
    · exact nobody i within ⟨used, by rw [unaccepted]; rfl, here, .inr state⟩

theorem acceptable_ne_none (port : Half) :
    acceptable n.table port ≠ none ↔ SomeQueued n port .established := by
  rw [acceptable, TcpTable.findConn, ← Option.isSome_iff_ne_none, List.find?_isSome]
  constructor
  · rintro ⟨i, within, test⟩
    simp only [Bool.and_eq_true, beq_iff_eq, Bool.not_eq_true'] at test
    obtain ⟨⟨⟨used, established⟩, here⟩, unaccepted⟩ := test
    exact ⟨i, List.mem_range.mp within, used, unaccepted, here, established⟩
  · rintro ⟨i, within, used, unaccepted, here, established⟩
    refine ⟨i, List.mem_range.mpr within, ?_⟩
    simp only [used, established, here, unaccepted, BEq.rfl, Bool.not_false, Bool.and_true]

theorem tcpAcceptSocket_ne_none {h l : Nat}
    (listening : n.tcpHandles h = { type := .tcpListen, conn := some l })
    (free : closedHandle n ≠ none) :
    (tcpAcceptSocket h n).2 ≠ none ↔ SomeQueued n (n.table.conns l).lport .established := by
  rw [← acceptable_ne_none]
  obtain ⟨j, found⟩ := Option.ne_none_iff_exists'.mp free
  simp only [tcpAcceptSocket, listening, ne_eq, not_true_eq_false, if_false]
  cases waits : acceptable n.table (n.table.conns l).lport with
  | none => simp only [not_true_eq_false]
  | some i => simp only [found, reduceCtorEq, not_false_eq_true]

theorem tcpSocketPoll_listening {h l : Nat} {events : Half}
    (listening : n.tcpHandles h = { type := .tcpListen, conn := some l })
    (asked : hasFlag events netPollin = true) :
    hasFlag (tcpSocketPoll h events n) netPollin = true ↔
      ((n.table.conns l).used = true ∧ (n.table.conns l).state = .listen) ∧
        (SomeQueued n (n.table.conns l).lport .synReceived ∨
          SomeQueued n (n.table.conns l).lport .established) := by
  have own : hasFlag netPollin netPollin = true := by decide
  have none : hasFlag (0 : Half) netPollin = false := by decide
  rw [← tcpPendingCount_ne_zero]
  simp only [tcpSocketPoll, listening, asked, true_and, ne_eq, not_true_eq_false, false_and,
    if_false, if_true]
  split
  · rename_i ready
    simp only [own, true_iff]
    exact ⟨⟨ready.1, ready.2.1⟩, ready.2.2⟩
  · rename_i idle
    simp only [none, Bool.false_eq_true, false_iff]
    exact fun ⟨⟨used, state⟩, waits⟩ => idle ⟨used, state, waits⟩

end Listeners

structure PollAgrees (n : NetSocks) (h : Nat) : Prop where
  acceptance : ∀ l events, n.tcpHandles h = { type := .tcpListen, conn := some l } →
    closedHandle n ≠ none → hasFlag events netPollin = true →
    (hasFlag (tcpSocketPoll h events n) netPollin = true ↔ (tcpAcceptSocket h n).2 ≠ none)
  reading : ∀ i events, n.tcpHandles h = { type := .tcpEstab, conn := some i } →
    (n.table.conns i).dead = false → (n.table.conns i).used = true →
    (n.table.conns i).state ≠ .closed → hasFlag events netPollin = true →
    ∀ env maxLen, 0 < maxLen →
      (hasFlag (tcpSocketPoll h events n) netPollin = true ↔
        (tcpRecv env (startIo (n.table.conns i)) maxLen).2 ≠ -1)
  writing : ∀ i events, n.tcpHandles h = { type := .tcpEstab, conn := some i } →
    (n.table.conns i).dead = false → (n.table.conns i).used = true →
    (n.table.conns i).state ≠ .closed → hasFlag events netPollout = true →
    ∀ env data, data ≠ [] →
      (hasFlag (tcpSocketPoll h events n) netPollout = true ↔
        1 ≤ (tcpSend env (startIo (n.table.conns i)) data).2)

/--
Polling agrees with the operations exactly when no listener has only half-open connections in
its queue, and none has lost its own slot while an open connection waits.

Accepted sockets always agree.
-/
theorem poll_agrees_iff (n : NetSocks) (h : Nat) :
    PollAgrees n h ↔ ∀ l, n.tcpHandles h = { type := .tcpListen, conn := some l } →
      closedHandle n ≠ none →
      let port := (n.table.conns l).lport
      let listens := (n.table.conns l).used = true ∧ (n.table.conns l).state = .listen
      (listens → SomeQueued n port .synReceived → SomeQueued n port .established) ∧
        (SomeQueued n port .established → listens) := by
  constructor
  · intro agrees l listening free
    have asked : hasFlag netPollin netPollin = true := by decide
    have same := agrees.acceptance l netPollin listening free asked
    rw [tcpSocketPoll_listening listening asked, tcpAcceptSocket_ne_none listening free] at same
    exact ⟨fun listens halfOpen => same.mp ⟨listens, .inl halfOpen⟩,
      fun established => (same.mpr established).1⟩
  · intro orderly
    refine { acceptance := ?_, reading := ?_, writing := ?_ }
    · intro l events listening free asked
      rw [tcpSocketPoll_listening listening asked, tcpAcceptSocket_ne_none listening free]
      obtain ⟨only, still⟩ := orderly l listening free
      constructor
      · rintro ⟨listens, halfOpen | established⟩
        · exact only listens halfOpen
        · exact established
      · exact fun established => ⟨still established, .inr established⟩
    · -- Both sides test the same fields of the connection.
      intro i events accepted alive used opened asked env maxLen _
      have polled : tcpSocketPoll h events n = pollConn events (n.table.conns i) := by
        simp [tcpSocketPoll, accepted]
      rw [polled, pollConn_readable alive used opened asked]
      exact (tcpRecv_blocks env (show (startIo (n.table.conns i)).conn.dead = false from alive)
        maxLen).symm
    · intro i events accepted alive used opened asked env data offers
      have polled : tcpSocketPoll h events n = pollConn events (n.table.conns i) := by
        simp [tcpSocketPoll, accepted]
      rw [polled, pollConn_writable alive used opened asked]
      exact (tcpSend_takes env (show (startIo (n.table.conns i)).conn.dead = false from alive)
        offers).symm

/--
A half-open connection makes its listener readable, and there is nothing to accept.

A listener on a port gets one connection request, and the peer's acknowledgement is still on its
way.
-/
theorem half_open_polls_readable :
    let env : TcpEnv := { ticks := 5, outcome := fun _ => .sent }
    let n := runInputs sockStep
      [(env, .openSocket 1), (env, .bind (.tcp firstHandle) 80),
        (env, .segment (headerBytes 4000 80 100 0 tcpFlagSyn) 1)] emptySocks
    n.tcpHandles 0 = { type := .tcpListen, conn := some 0 } ∧ closedHandle n ≠ none ∧
      hasFlag (tcpSocketPoll 0 netPollin n) netPollin = true ∧ (tcpAcceptSocket 0 n).2 = none := by
  decide

end CatOs.Net
