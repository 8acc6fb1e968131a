import CatOs.Net.BacklogLaws

/-! The backlog bounds what waits for a listener, and a connection is handed out at most once. -/

namespace CatOs.Net

open CatOs.Tcp

structure ServedOk (g : Served) : Prop where
  net : ListenersOk g.net
  past : ∀ entry ∈ g.handed, entry.2 ≤ g.opened entry.1
  settled : ∀ i < tcpMaxConns, (i, g.opened i) ∈ g.handed → Settled (g.net.socks.table.conns i)
  once : g.handed.Nodup

theorem handedSlot_some {s : TcpHandle} {n : NetSocks} {i : Nat} (handed : handedSlot s n = some i) :
    i < tcpMaxConns ∧ ¬Settled (n.table.conns i) ∧
      Settled ((acceptSocket s n).1.table.conns i) ∧
      Settled ((acceptAbort s n).table.conns i) := by
  simp only [handedSlot, acceptAbort] at handed ⊢
  rcases acceptSocket_cases s n with refused | ⟨k, j, established, ⟨below, unaccepted⟩, accepted⟩
  · rw [refused] at handed
    cases handed
  · rw [accepted] at handed ⊢
    simp only [tcpHandles_setTcp_self, Option.some.injEq] at handed
    subst handed
    refine ⟨below, ?_, .inl ?_, .inr ?_⟩
    · intro settled
      rcases settled with taken | notOpen
      · cases unaccepted.symm.trans taken
      · rw [established] at notOpen
        cases notOpen
    · show ((n.table.setConn k _).conns k).accepted = true
      rw [TcpTable.setConn_self]
    · simp only [tcpAbortSocket, tcpHandles_setTcp_self]
      show (((n.table.setConn k _).setConn k _).conns k).state.isOpen = false
      rw [TcpTable.setConn_self]
      rfl

theorem hands_some {input : TcpEnv × ListenOp} {n : NetState} {i : Nat}
    (handed : input.2.hands n = some i) :
    i < tcpMaxConns ∧ ¬Settled (n.socks.table.conns i) ∧
      Settled ((listenStep input n).socks.table.conns i) ∧ input.2.opens n = none := by
  obtain ⟨env, op⟩ := input
  cases op with
  | sock op =>
    cases op with
    | accept h =>
      obtain ⟨below, before, after, -⟩ := handedSlot_some handed
      exact ⟨below, before, after, rfl⟩
    | _ => cases handed
  | acceptSocket s =>
    obtain ⟨below, before, after, -⟩ := handedSlot_some handed
    exact ⟨below, before, after, rfl⟩
  | acceptAbort s =>
    obtain ⟨below, before, -, after⟩ := handedSlot_some handed
    exact ⟨below, before, after, rfl⟩
  | _ => cases handed

theorem ServedOk.servedStep {g : Served} (ok : ServedOk g) {input : TcpEnv × ListenOp}
    (allowed : ListenAllowed input g.net) : ServedOk (servedStep input g) := by
  have serves := ok.net.listenStep allowed
  cases handing : input.2.hands g.net with
  | some i =>
    obtain ⟨below, open_, after, unopened⟩ := hands_some handing
    rw [unopened] at serves
    simp only [CatOs.Net.servedStep, handing, unopened]
    refine { net := serves.ok, past := fun entry at_ => ?_, settled := fun k within at_ => ?_,
             once := ?_ }
    · rw [List.mem_append, List.mem_singleton] at at_
      rcases at_ with before | here
      · exact ok.past entry before
      · rw [here]
    · rw [List.mem_append, List.mem_singleton] at at_
      rcases at_ with before | here
      · exact serves.settled k within (by intro same; cases same) (ok.settled k within before)
      · have same : k = i := congrArg Prod.fst here
        rw [same]
        exact after
    · -- What was handed out before is settled, and this connection was not.
      refine List.nodup_append.mpr ⟨ok.once, List.nodup_singleton _, ?_⟩
      intro entry before other here same
      rw [List.mem_singleton] at here
      rw [same, here] at before
      exact open_ (ok.settled i below before)
  | none =>
    simp only [CatOs.Net.servedStep, handing]
    cases opening : input.2.opens g.net with
    | none =>
      rw [opening] at serves
      exact { net := serves.ok, past := ok.past
              settled := fun k within at_ => serves.settled k within (by intro same; cases same)
                (ok.settled k within at_)
              once := ok.once }
    | some i =>
      rw [opening] at serves
      refine { net := serves.ok, past := fun entry at_ => ?_, settled := fun k within at_ => ?_,
               once := ok.once }
      · have earlier := ok.past entry at_
        dsimp only
        by_cases here : entry.1 = i
        · rw [here, Function.update_self]
          rw [here] at earlier
          omega
        · rw [Function.update_of_ne here]
          exact earlier
      · dsimp only at at_
        by_cases here : k = i
        · -- The new connection of the slot has a number that none had before.
          rw [here, Function.update_self] at at_
          have earlier := ok.past _ at_
          dsimp only at earlier
          omega
        · rw [Function.update_of_ne here] at at_
          refine serves.settled k within (fun same => ?_) (ok.settled k within at_)
          exact here (Option.some.inj same).symm

theorem servedOk_bootServed : ServedOk bootServed := by
  have slot : SlotOk zeroConn :=
    { accepted := by intro accepted; cases accepted
      quiet := by intro used; cases used }
  have nobody : ∀ port, ¬Waits port zeroConn := by
    intro port waits
    cases waits.1
  exact { net := { slots := fun _ _ => slot
                   within := fun port => WithinBacklog.of_none fun _ _ => nobody port
                   unbound := fun h _ unbound => by cases unbound
                   listening := fun h _ listening => by cases listening
                   kernel := fun j l points => by cases points
                   distinct := fun j k l points => by cases points }
          past := fun entry at_ => by cases at_
          settled := fun i _ at_ => by cases at_
          once := List.nodup_nil }

/--
What waits for a port fits in the backlog of its listener, in every run.

Every connection is handed out at most once, and closing a listener, of an application or of the
kernel, leaves nothing that waits for its port.
-/
theorem backlog_bounds_pending {g : Served}
    (run : Run servedStep (fun input g => ListenAllowed input g.net) bootServed g) :
    (∀ port l, tcpConnFindListen g.net.socks.table port = some l →
      tcpPendingCount g.net.socks.table port ≤ (g.net.socks.table.conns l).backlog) ∧
    g.handed.Nodup ∧
    (∀ env (h : Fin tcpMaxConns) l, (g.net.socks.tcpHandles h).type = .tcpListen →
      (g.net.socks.tcpHandles h).conn = some l →
      tcpPendingCount (listenStep (env, .sock (.close (.tcp h))) g.net).socks.table
        (g.net.socks.table.conns l).lport = 0) ∧
    ∀ env (j : Fin tcpMaxConns) l, g.net.tcpSocks j = some l →
      tcpPendingCount (listenStep (env, .closeKernel j) g.net).socks.table
        (g.net.socks.table.conns l).lport = 0 := by
  have ok := run.invariant ServedOk servedOk_bootServed fun _ _ allowed ok => ok.servedStep allowed
  -- Freeing the slot of the listener itself lets nothing wait.
  have freed : ∀ l port,
      tcpPendingCount ((tcpDropPending port g.net.socks.table).setConn l
        { (tcpDropPending port g.net.socks.table).conns l with used := false }) port = 0 := by
    intro l port
    refine tcpPendingCount_eq_zero fun i below => ?_
    by_cases here : i = l
    · rw [here, TcpTable.setConn_self]
      intro waits
      cases waits.1
    · rw [TcpTable.setConn_of_ne here]
      exact not_waits_tcpDropPending port _ below
  refine ⟨fun port => (ok.net.within port).found, ok.once, ?_, ?_⟩
  · intro env h l listening conn
    have closed : (listenStep (env, .sock (.close (.tcp h))) g.net).socks.table =
        (tcpDropPending (g.net.socks.table.conns l).lport g.net.socks.table).setConn l
          { (tcpDropPending (g.net.socks.table.conns l).lport g.net.socks.table).conns l with
            used := false } := by
      simp only [listenStep, sockStep, netSocketClose, listening, conn, freeTcp]
      rfl
    rw [closed]
    exact freed l _
  · intro env j l points
    have closed : (listenStep (env, .closeKernel j) g.net).socks.table =
        (tcpDropPending (g.net.socks.table.conns l).lport g.net.socks.table).setConn l
          { (tcpDropPending (g.net.socks.table.conns l).lport g.net.socks.table).conns l with
            used := false } := by
      simp only [listenStep, closeKernel, points]
    rw [closed]
    exact freed l _

def twoAsk : List (TcpEnv × ListenOp) :=
  let env : TcpEnv := { ticks := 5, outcome := fun _ => .sent }
  [(env, .listen 81), (env, .sock (.openSocket 1)), (env, .sock (.bind (.tcp ⟨1, by decide⟩) 80)),
    (env, .sock (.segment (headerBytes 4000 80 100 0 tcpFlagSyn) 1)),
    (env, .sock (.segment (headerBytes 4000 80 100 0 tcpFlagSyn) 2)),
    (env, .sock (.segment (headerBytes 4000 80 101 1 tcpFlagAck) 1))]

/-- One peer fills the backlog, and once it is handed out nothing waits any more. -/
theorem backlog_bounds_pending_one :
    let env : TcpEnv := { ticks := 5, outcome := fun _ => .sent }
    let g := runInputs servedStep twoAsk bootServed
    let h := servedStep (env, .acceptSocket (.handle ⟨1, by decide⟩)) g
    Run servedStep (fun input g => ListenAllowed input g.net) bootServed g ∧
      tcpConnFindListen g.net.socks.table 80 = some 1 ∧
      tcpPendingCount g.net.socks.table 80 = 1 ∧
      tcpPendingCount g.net.socks.table 80 ≤ (g.net.socks.table.conns 1).backlog ∧
      h.handed = [(2, 1)] ∧ tcpPendingCount h.net.socks.table 80 = 0 := by
  intro env g h
  have sender : ∀ (seg : List UInt8) (ip : Word), ip ≠ 0 →
      ∀ s ∈ tcpParseSegment seg, ¬(ip = 0 ∧ s.srcPort = 0) :=
    fun _ _ known _ _ both => known both.1
  have run : Run servedStep (fun input g => ListenAllowed input g.net) bootServed g :=
    Run.start.inputs twoAsk ⟨trivial, trivial, trivial, sender _ 1 (by decide),
      sender _ 2 (by decide), sender _ 1 (by decide), trivial⟩
  have listener : tcpConnFindListen g.net.socks.table 80 = some 1 := by decide
  refine ⟨run, listener, by decide, ?_, by decide, by decide⟩
  exact (backlog_bounds_pending run).1 80 1 listener

end CatOs.Net
