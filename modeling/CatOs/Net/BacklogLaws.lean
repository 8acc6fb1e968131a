import CatOs.Net.Backlog

/-! Every operation keeps what waits for a listener within its backlog. -/

namespace CatOs.Net

open CatOs.Tcp
open Function

structure WithinBacklog (w : TcpTable) (port : Half) : Prop where
  found : ∀ l, tcpConnFindListen w port = some l → tcpPendingCount w port ≤ (w.conns l).backlog
  missing : tcpConnFindListen w port = none → tcpPendingCount w port = 0

section Table

variable {w w' : TcpTable} {port : Half}

theorem tcpPendingCount_eq (w : TcpTable) (port : Half) :
    tcpPendingCount w port = Nat.count (fun i => Waits port (w.conns i)) tcpMaxConns :=
  forRange_count (fun i => Waits port (w.conns i)) tcpMaxConns

theorem tcpPendingCount_le (w : TcpTable) (port : Half) : tcpPendingCount w port ≤ tcpMaxConns := by
  rw [tcpPendingCount_eq]
  exact Nat.count_le ..

theorem tcpPendingCount_eq_zero (nobody : ∀ i < tcpMaxConns, ¬Waits port (w.conns i)) :
    tcpPendingCount w port = 0 := by
  rw [tcpPendingCount_eq]
  exact Nat.count_iff_forall_not.mpr nobody

theorem tcpPendingCount_mono
    (waits : ∀ i < tcpMaxConns, Waits port (w'.conns i) → Waits port (w.conns i)) :
    tcpPendingCount w' port ≤ tcpPendingCount w port := by
  rw [tcpPendingCount_eq, tcpPendingCount_eq]
  exact Nat.count_mono_left waits

theorem listens_iff_test {c : TcpConn} :
    (c.used && c.state == .listen && c.lport == port) = true ↔ Listens port c := by
  simp only [Bool.and_eq_true, beq_iff_eq, Listens, and_assoc]

theorem tcpConnFindListen_eq_some {l : Nat} : tcpConnFindListen w port = some l ↔
    l < tcpMaxConns ∧ Listens port (w.conns l) ∧ ∀ j < l, ¬Listens port (w.conns j) := by
  simp only [tcpConnFindListen, TcpTable.findConn, List.find?_range_eq_some, List.mem_range,
    listens_iff_test, Bool.not_eq_true', ← Bool.not_eq_true]
  constructor
  · intro found
    exact ⟨found.2.1, found.1, found.2.2⟩
  · intro found
    exact ⟨found.2.1, found.1, found.2.2⟩

theorem tcpConnFindListen_eq_none :
    tcpConnFindListen w port = none ↔ ∀ i < tcpMaxConns, ¬Listens port (w.conns i) := by
  simp only [tcpConnFindListen, TcpTable.findConn, List.find?_range_eq_none, listens_iff_test,
    Bool.not_eq_true', ← Bool.not_eq_true]

/--
The bound of a port survives a change of the table.

No slot may start to wait and no listener may go. A listener that is new, or has a new backlog,
must have room for what waits already.
-/
theorem WithinBacklog.change (within : WithinBacklog w port)
    (waits : ∀ i < tcpMaxConns, Waits port (w'.conns i) → Waits port (w.conns i))
    (kept : ∀ i < tcpMaxConns, Listens port (w.conns i) → Listens port (w'.conns i))
    (room : ∀ i < tcpMaxConns, Listens port (w'.conns i) →
      (Listens port (w.conns i) ∧ (w'.conns i).backlog = (w.conns i).backlog) ∨
        tcpPendingCount w port ≤ (w'.conns i).backlog) : WithinBacklog w' port := by
  have fewer := tcpPendingCount_mono waits
  constructor
  · intro l found
    obtain ⟨below, listens, first⟩ := tcpConnFindListen_eq_some.mp found
    rcases room l below listens with ⟨before, same⟩ | room
    · -- It listened already, and none before it did.
      have listener : tcpConnFindListen w port = some l := by
        refine tcpConnFindListen_eq_some.mpr ⟨below, before, fun j earlier there => ?_⟩
        exact first j earlier (kept j (Nat.lt_trans earlier below) there)
      have bound := within.found l listener
      omega
    · omega
  · intro missing
    have deaf := tcpConnFindListen_eq_none.mp missing
    have nobody := within.missing
      (tcpConnFindListen_eq_none.mpr fun i below there => deaf i below (kept i below there))
    omega

theorem WithinBacklog.setConn (within : WithinBacklog w port) {i : Nat} {c : TcpConn}
    (waits : Waits port c → Waits port (w.conns i))
    (kept : Listens port (w.conns i) → Listens port c)
    (room : Listens port c →
      (Listens port (w.conns i) ∧ c.backlog = (w.conns i).backlog) ∨
        tcpPendingCount w port ≤ c.backlog) : WithinBacklog (w.setConn i c) port := by
  have slots := @TcpTable.forall_setConn w (fun j d => (Waits port d → Waits port (w.conns j)) ∧
    (Listens port (w.conns j) → Listens port d) ∧ (Listens port d →
      (Listens port (w.conns j) ∧ d.backlog = (w.conns j).backlog) ∨
        tcpPendingCount w port ≤ d.backlog)) i c ⟨waits, kept, room⟩
    fun j _ => ⟨id, id, fun listens => .inl ⟨listens, rfl⟩⟩
  exact within.change (fun j _ => (slots j).1) (fun j _ => (slots j).2.1) fun j _ => (slots j).2.2

theorem WithinBacklog.of_none (nobody : ∀ i < tcpMaxConns, ¬Waits port (w.conns i)) :
    WithinBacklog w port := by
  have zero := tcpPendingCount_eq_zero nobody
  exact { found := fun l _ => by omega, missing := fun _ => zero }

/-- A connection that opens in a free slot takes one place of the backlog of its port. -/
theorem WithinBacklog.accept (within : WithinBacklog w port) {i : Nat} {c : TcpConn}
    (below : i < tcpMaxConns) (free : (w.conns i).used = false) (busy : c.state.isIdle = false)
    (room : c.lport = port → ∃ l ∈ tcpConnFindListen w port,
      tcpPendingCount w port < (w.conns l).backlog) :
    WithinBacklog (w.setConn i c) port := by
  -- The slot listens neither before nor after.
  have deaf : ∀ j, Listens port ((w.setConn i c).conns j) ↔ Listens port (w.conns j) := by
    refine @TcpTable.forall_setConn w (fun j d => Listens port d ↔ Listens port (w.conns j)) i c
      ?_ fun _ _ => Iff.rfl
    constructor
    · intro listens
      cases busy.symm.trans listens.idle
    · intro listens
      cases free.symm.trans listens.1
  have unlistened : ∀ l, Listens port (w.conns l) → l ≠ i := by
    intro l listens here
    rw [here] at listens
    cases free.symm.trans listens.1
  have same : tcpConnFindListen (w.setConn i c) port = tcpConnFindListen w port := by
    cases found : tcpConnFindListen w port with
    | none =>
      rw [tcpConnFindListen_eq_none] at found ⊢
      exact fun j within listens => found j within ((deaf j).mp listens)
    | some l =>
      rw [tcpConnFindListen_eq_some] at found ⊢
      exact ⟨found.1, (deaf l).mpr found.2.1,
        fun j earlier listens => found.2.2 j earlier ((deaf j).mp listens)⟩
  have apart : ∀ j < tcpMaxConns, j ≠ i →
      (Waits port (w.conns j) ↔ Waits port ((w.setConn i c).conns j)) := by
    intro j _ other
    rw [TcpTable.setConn_of_ne other]
  have change := count_change below apart
  rw [← tcpPendingCount_eq w, ← tcpPendingCount_eq (w.setConn i c), TcpTable.setConn_self,
    if_neg fun waits : Waits port (w.conns i) => by cases free.symm.trans waits.1] at change
  constructor
  · intro l found
    rw [same] at found
    have other := unlistened l (tcpConnFindListen_eq_some.mp found).2.1
    rw [TcpTable.setConn_of_ne other]
    by_cases here : Waits port c
    · obtain ⟨l', listener, room⟩ := room here.2.2.1
      have first : l' = l := Option.some.inj (listener.symm.trans found)
      rw [first] at room
      rw [if_pos here] at change
      omega
    · rw [if_neg here] at change
      have bound := within.found l found
      omega
  · intro missing
    rw [same] at missing
    by_cases here : Waits port c
    · obtain ⟨l', listener, -⟩ := room here.2.2.1
      cases missing.symm.trans listener
    · rw [if_neg here] at change
      have nobody := within.missing missing
      omega

end Table

def NetState.Owned (n : NetState) (i : Nat) : Prop :=
  (n.socks.tcpHandles i).type = .tcpUnbound ∨ (n.socks.tcpHandles i).type = .tcpListen ∨
    ∃ j : Fin tcpMaxConns, n.tcpSocks j = some i

structure ListenersOk (n : NetState) : Prop where
  slots : ∀ i < tcpMaxConns, SlotOk (n.socks.table.conns i)
  within : ∀ port, WithinBacklog n.socks.table port
  unbound : ∀ h < tcpMaxConns, (n.socks.tcpHandles h).type = .tcpUnbound →
    (n.socks.tcpHandles h).conn = some h ∧ (n.socks.table.conns h).used = true ∧
      (n.socks.table.conns h).state = .closed
  listening : ∀ h < tcpMaxConns, (n.socks.tcpHandles h).type = .tcpListen →
    (n.socks.tcpHandles h).conn = some h ∧ (n.socks.table.conns h).used = true ∧
      (n.socks.table.conns h).state = .listen
  kernel : ∀ (j : Fin tcpMaxConns) l, n.tcpSocks j = some l →
    l < tcpMaxConns ∧ (n.socks.table.conns l).used = true ∧
      (n.socks.table.conns l).state = .listen ∧ (n.socks.tcpHandles l).type ≠ .tcpUnbound ∧
      (n.socks.tcpHandles l).type ≠ .tcpListen
  distinct : ∀ (j k : Fin tcpMaxConns) l, n.tcpSocks j = some l → n.tcpSocks k = some l → j = k

structure Serves (opened : Option Nat) (n n' : NetState) : Prop where
  ok : ListenersOk n'
  settled : ∀ i < tcpMaxConns, opened ≠ some i → Settled (n.socks.table.conns i) →
    Settled (n'.socks.table.conns i)

section Changes

variable {n : NetState} (ok : ListenersOk n)

theorem Serves.trans {opened : Option Nat} {first second : NetState}
    (before : Serves none n first) (after : Serves opened first second) :
    Serves opened n second :=
  { ok := after.ok
    settled := by
      intro i below other settled
      exact after.settled i below other (before.settled i below (by intro same; cases same) settled) }

include ok

theorem ListenersOk.free {i : Nat} (below : i < tcpMaxConns)
    (free : (n.socks.table.conns i).used = false) : ¬n.Owned i := by
  intro owned
  rcases owned with unbound | listening | ⟨j, kernel⟩
  · cases free.symm.trans (ok.unbound i below unbound).2.1
  · cases free.symm.trans (ok.listening i below listening).2.1
  · cases free.symm.trans (ok.kernel j i kernel).2.1

theorem ListenersOk.setTable {table : TcpTable}
    (slots : ∀ i < tcpMaxConns, SlotOk (table.conns i)) (within : ∀ port, WithinBacklog table port)
    (rest : ∀ i < tcpMaxConns, n.Owned i → (n.socks.table.conns i).used = true →
      (n.socks.table.conns i).state.isIdle = true →
      (table.conns i).used = true ∧ (table.conns i).state = (n.socks.table.conns i).state) :
    ListenersOk { n with socks := { n.socks with table := table } } := by
  refine { slots := slots, within := within, unbound := fun h below unbound => ?_,
           listening := fun h below listening => ?_, kernel := fun j l points => ?_,
           distinct := ok.distinct }
  · obtain ⟨conn, used, state⟩ := ok.unbound h below unbound
    obtain ⟨still, same⟩ := rest h below (.inl unbound) used (by rw [state]; rfl)
    exact ⟨conn, still, same.trans state⟩
  · obtain ⟨conn, used, state⟩ := ok.listening h below listening
    obtain ⟨still, same⟩ := rest h below (.inr (.inl listening)) used (by rw [state]; rfl)
    exact ⟨conn, still, same.trans state⟩
  · obtain ⟨below, used, state, plain⟩ := ok.kernel j l points
    obtain ⟨still, same⟩ := rest l below (.inr (.inr ⟨j, points⟩)) used (by rw [state]; rfl)
    exact ⟨below, still, same.trans state, plain⟩

theorem ListenersOk.calm {table : TcpTable}
    (calm : ∀ i < tcpMaxConns, Calm (n.socks.table.conns i) (table.conns i)) :
    Serves none n { n with socks := { n.socks with table := table } } := by
  refine { ok := ok.setTable (fun i below => (calm i below).ok) (fun port => ?_)
             fun i below _ used idle => (calm i below).rest used idle
           settled := fun i below _ settled => (calm i below).settled settled }
  refine (ok.within port).change (fun i below waits => (calm i below).waits port waits)
    (fun i below listens => ((calm i below).listens port).mpr listens) fun i below listens => ?_
  have before := ((calm i below).listens port).mp listens
  exact .inl ⟨before, (calm i below).backlog port before⟩

theorem ListenersOk.calmAt (i : Nat) {c : TcpConn}
    (calm : i < tcpMaxConns → Calm (n.socks.table.conns i) c) :
    Serves none n { n with socks := n.socks.setConn i c } := by
  exact ok.calm (@TcpTable.forall_setConn n.socks.table
    (fun j d => j < tcpMaxConns → Calm (n.socks.table.conns j) d) i c calm
    fun j _ below => Calm.refl (ok.slots j below))

theorem ListenersOk.setConn {i : Nat} (unowned : ¬n.Owned i) {c : TcpConn} (slot : SlotOk c)
    (within : ∀ port, WithinBacklog (n.socks.table.setConn i c) port) :
    ListenersOk { n with socks := n.socks.setConn i c } := by
  refine ok.setTable (@TcpTable.forall_setConn n.socks.table
    (fun j d => j < tcpMaxConns → SlotOk d) i c (fun _ => slot) fun j _ => ok.slots j) within
    fun j below owned used idle => ?_
  · have other : j ≠ i := by
      intro here
      rw [here] at owned
      exact unowned owned
    rw [TcpTable.setConn_of_ne other]
    exact ⟨used, rfl⟩

theorem ListenersOk.setTcp (h : Nat) {handle : TcpHandle} (notUnbound : handle.type ≠ .tcpUnbound)
    (notListen : handle.type ≠ .tcpListen) :
    Serves none n { n with socks := n.socks.setTcp h handle } := by
  -- A handle without a peer is one that was there before.
  have before : ∀ g type, type ≠ handle.type → ((n.socks.setTcp h handle).tcpHandles g).type = type →
      (n.socks.setTcp h handle).tcpHandles g = n.socks.tcpHandles g := by
    intro g type other is
    by_cases here : g = h
    · subst here
      rw [tcpHandles_setTcp_self] at is
      exact (other is.symm).elim
    · exact tcpHandles_setTcp_of_ne here handle
  refine { ok := { slots := ok.slots, within := ok.within, unbound := fun g below unbound => ?_,
                   listening := fun g below listening => ?_, kernel := fun j l points => ?_,
                   distinct := ok.distinct }
           settled := fun i below _ settled => settled }
  · have same := before g _ notUnbound.symm unbound
    dsimp only at unbound ⊢
    rw [same] at unbound ⊢
    exact ok.unbound g below unbound
  · have same := before g _ notListen.symm listening
    dsimp only at listening ⊢
    rw [same] at listening ⊢
    exact ok.listening g below listening
  · obtain ⟨below, used, state, plain⟩ := ok.kernel j l points
    refine ⟨below, used, state, ?_, ?_⟩
    · intro unbound
      rw [before l _ notUnbound.symm unbound] at unbound
      exact plain.1 unbound
    · intro listening
      rw [before l _ notListen.symm listening] at listening
      exact plain.2 listening

theorem ListenersOk.closeTcp (h : Nat) :
    Serves none n { n with socks := n.socks.closeTcp h } :=
  ok.setTcp h (by intro same; cases same) (by intro same; cases same)

theorem ListenersOk.congr {socks : NetSocks} (table : socks.table = n.socks.table)
    (handles : socks.tcpHandles = n.socks.tcpHandles) : Serves none n { n with socks := socks } := by
  refine { ok := { slots := ?_, within := ?_, unbound := ?_, listening := ?_, kernel := ?_,
                   distinct := ok.distinct }
           settled := fun i _ _ settled => by rw [table]; exact settled }
  all_goals
    dsimp only
    rw [table]
  · exact ok.slots
  · exact ok.within
  · rw [handles]
    exact ok.unbound
  · rw [handles]
    exact ok.listening
  · rw [handles]
    exact ok.kernel

/-- A slot and the handle of the same index may become a socket without a peer. -/
theorem ListenersOk.setSocket {h : Nat} {c : TcpConn} {handle : TcpHandle}
    (below : h < tcpMaxConns) (unowned : ∀ j : Fin tcpMaxConns, n.tcpSocks j ≠ some h)
    (slot : SlotOk c) (within : ∀ port, WithinBacklog (n.socks.table.setConn h c) port)
    (used : c.used = true) (conn : handle.conn = some h)
    (fits : handle.type = .tcpUnbound ∧ c.state = .closed ∨
      handle.type = .tcpListen ∧ c.state = .listen) :
    Serves none n { n with socks := (n.socks.setConn h c).setTcp h handle } := by
  have here : (n.socks.table.setConn h c).conns h = c := TcpTable.setConn_self ..
  have there : ∀ {i}, i ≠ h → (n.socks.table.setConn h c).conns i = n.socks.table.conns i :=
    fun other => TcpTable.setConn_of_ne other c
  have table : ((n.socks.setConn h c).setTcp h handle).table = n.socks.table.setConn h c := rfl
  have handles : ∀ {g}, g ≠ h →
      ((n.socks.setConn h c).setTcp h handle).tcpHandles g = n.socks.tcpHandles g :=
    fun other => tcpHandles_setTcp_of_ne other handle
  have handed : ((n.socks.setConn h c).setTcp h handle).tcpHandles h = handle :=
    tcpHandles_setTcp_self h handle
  constructor
  · constructor
    · exact @TcpTable.forall_setConn n.socks.table (fun i d => i < tcpMaxConns → SlotOk d) h c
        (fun _ => slot) fun i _ => ok.slots i
    · exact within
    · intro g within unbound
      rw [table]
      by_cases at_ : g = h
      · subst at_
        dsimp only at unbound ⊢
        rw [handed] at unbound ⊢
        rw [here]
        rcases fits with ⟨-, closed⟩ | ⟨listening, -⟩
        · exact ⟨conn, used, closed⟩
        · cases listening.symm.trans unbound
      · dsimp only at unbound ⊢
        rw [handles at_] at unbound ⊢
        rw [there at_]
        exact ok.unbound g within unbound
    · intro g within listening
      rw [table]
      by_cases at_ : g = h
      · subst at_
        dsimp only at listening ⊢
        rw [handed] at listening ⊢
        rw [here]
        rcases fits with ⟨unbound, -⟩ | ⟨-, listens⟩
        · cases unbound.symm.trans listening
        · exact ⟨conn, used, listens⟩
      · dsimp only at listening ⊢
        rw [handles at_] at listening ⊢
        rw [there at_]
        exact ok.listening g within listening
    · intro j l points
      have other : l ≠ h := by
        intro same
        rw [same] at points
        exact unowned j points
      rw [table]
      dsimp only
      rw [there other, handles other]
      exact ok.kernel j l points
    · exact ok.distinct
  · intro i _ _ settled
    refine @TcpTable.forall_setConn n.socks.table
      (fun j d => Settled (n.socks.table.conns j) → Settled d) h c (fun _ => ?_) (fun _ _ => id) i
      settled
    rcases fits with ⟨-, state⟩ | ⟨-, state⟩
    · exact .inr (by rw [state]; rfl)
    · exact .inr (by rw [state]; rfl)

end Changes

section Slots

theorem slotOk_bindConn (port : Half) (c : TcpConn) : SlotOk (bindConn port c) := by
  have accepted : (bindConn port c).accepted = false := rfl
  exact { accepted := fun taken => by cases accepted.symm.trans taken
          quiet := fun _ _ => { peerIp := rfl, peerPort := rfl, rtoDeadline := rfl
                                persistDeadline := rfl } }

theorem slotOk_listenConn (port : Half) (c : TcpConn) : SlotOk (listenConn port c) := by
  have accepted : (listenConn port c).accepted = false := rfl
  exact { accepted := fun taken => by cases accepted.symm.trans taken
          quiet := fun _ _ => { peerIp := rfl, peerPort := rfl, rtoDeadline := rfl
                                persistDeadline := rfl } }

theorem slotOk_opened : SlotOk { zeroConn with used := true, state := .closed } :=
  { accepted := by intro accepted; cases accepted
    quiet := fun _ _ => { peerIp := rfl, peerPort := rfl, rtoDeadline := rfl
                          persistDeadline := rfl } }

theorem not_waits_of_idle {c : TcpConn} (idle : c.state.isIdle = true) (port : Half) :
    ¬Waits port c := by
  intro waits
  rcases waits.2.2.2 with state | state <;> rw [state] at idle <;> cases idle

end Slots

theorem acceptable_some {w : TcpTable} {port : Half} {i : Nat} (found : acceptable w port = some i) :
    i < tcpMaxConns ∧ (w.conns i).state = .established ∧ (w.conns i).accepted = false := by
  obtain ⟨below, test⟩ := TcpTable.findConn_some found
  simp only [Bool.and_eq_true, beq_iff_eq, Bool.not_eq_true'] at test
  exact ⟨below, test.1.1.2, test.2⟩

theorem acceptSocket_cases (s : TcpHandle) (n : NetSocks) :
    acceptSocket s n = (n, none) ∨ ∃ i j, (n.table.conns i).state = .established ∧
      (i < tcpMaxConns ∧ (n.table.conns i).accepted = false) ∧ acceptSocket s n =
        ({ (n.setConn i { n.table.conns i with accepted := true }).setTcp j
            { type := .tcpEstab, conn := some i } with
            acceptedFor := update n.acceptedFor j (connId (n.table.conns i)) }, some j) := by
  unfold acceptSocket
  split
  · exact .inl rfl
  split
  · exact .inl rfl
  split
  · exact .inl rfl
  rename_i i found
  split
  · exact .inl rfl
  · rename_i j closed
    obtain ⟨below, established, unaccepted⟩ := acceptable_some found
    exact .inr ⟨i, j, established, ⟨below, unaccepted⟩, rfl⟩

theorem tcpDropPending_conns (port : Half) (w : TcpTable) (i : Nat) :
    (tcpDropPending port w).conns i =
      if i < tcpMaxConns ∧ Waits port (w.conns i) then releaseConn (w.conns i) else w.conns i := by
  unfold tcpDropPending
  dsimp only
  generalize tcpMaxConns = count
  -- The loop has released what waits below its index, and not yet touched the rest.
  have loop := @forRange_invariant (Buffer TcpConn) count (fun i conns =>
    if Waits port (conns i) then update conns i (releaseConn (conns i)) else conns) w.conns
    (fun k conns => ∀ i, conns i =
      if i < k ∧ Waits port (w.conns i) then releaseConn (w.conns i) else w.conns i)
    (fun i => by rw [if_neg fun here => absurd here.1 (Nat.not_lt_zero i)]) ?_
  · exact loop i
  intro k conns _ before i
  have untouched : conns k = w.conns k := by
    rw [before k, if_neg fun here => absurd here.1 (Nat.lt_irrefl k)]
  rw [untouched]
  by_cases here : i = k
  · subst here
    by_cases waits : Waits port (w.conns i)
    · rw [if_pos waits, if_pos ⟨Nat.lt_succ_self i, waits⟩, update_self]
    · rw [if_neg waits, if_neg fun both => waits both.2, untouched]
  · have same : (i < k + 1 ∧ Waits port (w.conns i)) ↔ (i < k ∧ Waits port (w.conns i)) := by
      constructor
      · exact fun both => ⟨by omega, both.2⟩
      · exact fun both => ⟨by omega, both.2⟩
    rw [if_congr same rfl rfl, ← before i]
    split
    · exact update_of_ne here _ _
    · rfl

theorem not_waits_tcpDropPending (port : Half) (w : TcpTable) {i : Nat} (below : i < tcpMaxConns) :
    ¬Waits port ((tcpDropPending port w).conns i) := by
  rw [tcpDropPending_conns]
  intro waits
  split at waits
  · cases waits.1
  · rename_i neither
    exact neither ⟨below, waits⟩

theorem tcpDropPending_idle (port : Half) (w : TcpTable) {i : Nat}
    (idle : (w.conns i).state.isIdle = true) : (tcpDropPending port w).conns i = w.conns i := by
  rw [tcpDropPending_conns, if_neg fun both => not_waits_of_idle idle port both.2]

theorem state_tcpSynAccept (env : TcpEnv) (s : TcpIn) (srcIp isn : Word) (c : TcpConn) :
    (tcpSynAccept env s srcIp isn c).conn.state = .synReceived ∧
      (tcpSynAccept env s srcIp isn c).conn.accepted = false ∧
      (tcpSynAccept env s srcIp isn c).conn.lport = s.dstPort := by
  obtain ⟨_, _, _, claimed⟩ := initSynConn_fields c s srcIp isn
  obtain ⟨_, conn⟩ := tcpSynAccept_conn c env s srcIp isn
  rw [conn, claimed]
  exact ⟨rfl, rfl, rfl⟩

section Operations

variable {n : NetState} (ok : ListenersOk n) (env : TcpEnv)
include ok

theorem ListenersOk.netSocketOpen (type : Nat) :
    Serves none n { n with socks := (netSocketOpen type n.socks).1 } := by
  simp only [CatOs.Net.netSocketOpen]
  split
  · split <;> exact ok.congr rfl rfl
  split
  swap
  · exact ok.congr rfl rfl
  split
  · exact ok.congr rfl rfl
  rename_i i found
  obtain ⟨below, free⟩ := TcpTable.findConn_some found
  have free : (n.socks.table.conns i).used = false := by simpa using free
  refine ok.setSocket below (fun j points => ok.free below free (.inr (.inr ⟨j, points⟩)))
    slotOk_opened (fun port => (ok.within port).setConn ?_ ?_ ?_) rfl rfl (.inl ⟨rfl, rfl⟩)
  · exact fun waits => (not_waits_of_idle (by rfl) port waits).elim
  · intro listens
    cases free.symm.trans listens.1
  · intro listens
    cases listens.2.1

theorem ListenersOk.netSocketBind (s : SockRef) (port : Half) :
    Serves none n { n with socks := (netSocketBind s port n.socks).1 } := by
  simp only [CatOs.Net.netSocketBind]
  split
  · exact ok.congr rfl rfl
  split
  · split
    · split <;> exact ok.congr rfl rfl
    · exact ok.congr rfl rfl
  rename_i h
  split
  swap
  · exact ok.congr rfl rfl
  rename_i unbound
  split
  · exact ok.congr rfl rfl
  rename_i unlistened
  obtain ⟨conn, used, state⟩ := ok.unbound h h.isLt unbound
  have missing : tcpConnFindListen n.socks.table port = none := by simpa using unlistened
  rw [conn]
  refine ok.setSocket h.isLt (fun j points => (ok.kernel j h points).2.2.2.1 unbound)
    (slotOk_bindConn port _) (fun other => (ok.within other).setConn ?_ ?_ ?_) used rfl
    (.inr ⟨rfl, rfl⟩)
  · exact fun waits => (not_waits_of_idle (by rfl) other waits).elim
  · intro listens
    cases state.symm.trans listens.2.1
  · -- Nothing waits for a port without a listener.
    intro listens
    have same : port = other := listens.2.2
    have nobody := (ok.within port).missing missing
    right
    rw [← same, nobody]
    exact Nat.zero_le _

theorem ListenersOk.acceptSocket (s : TcpHandle) :
    Serves none n { n with socks := (acceptSocket s n.socks).1 } := by
  rcases acceptSocket_cases s n.socks with refused | ⟨i, j, established, -, accepted⟩
  · rw [refused]
    exact ok.congr rfl rfl
  · rw [accepted]
    have taken := ok.calmAt i fun _ => Calm.accept established
    have handle := @ListenersOk.setTcp _ taken.ok j { type := .tcpEstab, conn := some i }
      (by intro same; cases same) (by intro same; cases same)
    exact (taken.trans handle).trans (handle.ok.congr rfl rfl)

theorem ListenersOk.acceptAbort (s : TcpHandle) :
    Serves none n { n with socks := acceptAbort s n.socks } := by
  have served := ok.acceptSocket s
  simp only [CatOs.Net.acceptAbort]
  rcases acceptSocket_cases s n.socks with refused | ⟨i, j, established, -, accepted⟩
  · rw [refused] at served ⊢
    exact served
  · rw [accepted] at served ⊢
    simp only [tcpAbortSocket, tcpHandles_setTcp_self]
    -- The slot of the new handle holds the connection that was just accepted.
    have dropped := served.ok.calmAt i (c := _) fun _ => Calm.drop (d := { (((n.socks.setConn i
      { n.socks.table.conns i with accepted := true }).setTcp j
        { type := .tcpEstab, conn := some i }).table.conns i) with
      used := false, state := .closed, rtoDeadline := 0, persistDeadline := 0 }) ?_ rfl rfl
    · exact (served.trans dropped).trans (dropped.ok.closeTcp j)
    · show ((n.socks.table.setConn i _).conns i).state.isIdle = false
      rw [TcpTable.setConn_self]
      show (n.socks.table.conns i).state.isIdle = false
      rw [established]
      rfl

theorem ListenersOk.tcpAccept (s : TcpHandle) :
    Serves none n { n with socks := (tcpAccept s n.socks).1 } := by
  simp only [CatOs.Net.tcpAccept]
  split
  · exact ok.congr rfl rfl
  split
  · exact ok.congr rfl rfl
  split
  · exact ok.congr rfl rfl
  · rename_i i found
    exact ok.calmAt i fun _ => Calm.accept (acceptable_some found).2.1

theorem ListenersOk.onConn (h : Nat) {run : TcpIo → TcpIo}
    (calm : ∀ c, SlotOk c → Calm c (run (startIo c)).conn) :
    Serves none n { n with socks := onConn h n.socks run } := by
  simp only [CatOs.Net.onConn]
  split
  · rename_i i _ _
    exact ok.calmAt i fun below => calm _ (ok.slots i below)
  · exact ok.congr rfl rfl

theorem ListenersOk.tcpCloseSocket (h : Nat) :
    Serves none n { n with socks := tcpCloseSocket env h n.socks } := by
  simp only [CatOs.Net.tcpCloseSocket]
  split
  · rename_i i _ _
    have closed := ok.calmAt i fun below => calm_tcpClose env (ok.slots i below)
    exact closed.trans (closed.ok.closeTcp h)
  · exact ok.closeTcp h

theorem ListenersOk.freeConn {i : Nat} (unowned : ¬n.Owned i)
    (below : i < tcpMaxConns)
    (unheard : ∀ port, Listens port (n.socks.table.conns i) →
      ∀ j < tcpMaxConns, ¬Waits port (n.socks.table.conns j)) :
    Serves none n
      { n with socks := n.socks.setConn i { n.socks.table.conns i with used := false } } := by
  have slot : SlotOk { n.socks.table.conns i with used := false } :=
    { accepted := (ok.slots i below).accepted, quiet := by intro used; cases used }
  refine { ok := ok.setConn unowned slot fun port => ?_, settled := fun j _ _ settled => ?_ }
  · by_cases listens : Listens port (n.socks.table.conns i)
    · -- A port that nothing waits for needs no listener.
      refine WithinBacklog.of_none fun j within => ?_
      by_cases here : j = i
      · rw [here, TcpTable.setConn_self]
        intro waits
        cases waits.1
      · rw [TcpTable.setConn_of_ne here]
        exact unheard port listens j within
    · refine (ok.within port).setConn ?_ (fun there => (listens there).elim) ?_
      · intro waits
        cases waits.1
      · intro there
        cases there.1
  · exact @TcpTable.forall_setConn n.socks.table
      (fun j d => Settled (n.socks.table.conns j) → Settled d) i
      { n.socks.table.conns i with used := false } id (fun _ _ => id) j settled

theorem ListenersOk.tcpDropPending (port : Half) : Serves none n
    { n with socks := { n.socks with table := tcpDropPending port n.socks.table } } := by
  apply ok.calm
  intro i below
  rw [tcpDropPending_conns]
  split
  · rename_i waits
    refine Calm.drop ?_ rfl rfl
    by_contra idle
    exact not_waits_of_idle (by simpa using idle) port waits.2
  · exact Calm.refl (ok.slots i below)

theorem ListenersOk.freeTcp {h : Nat} (below : h < tcpMaxConns)
    (conn : (n.socks.tcpHandles h).conn = some h)
    (owned : (n.socks.tcpHandles h).type = .tcpUnbound ∨ (n.socks.tcpHandles h).type = .tcpListen)
    (unheard : ∀ port, Listens port (n.socks.table.conns h) →
      ∀ j < tcpMaxConns, ¬Waits port (n.socks.table.conns j)) :
    Serves none n { n with socks := freeTcp h n.socks } := by
  simp only [CatOs.Net.freeTcp, conn]
  have closed := ok.closeTcp h
  -- Once its handle is closed, no socket stands for the slot.
  have unowned : ¬NetState.Owned { n with socks := n.socks.closeTcp h } h := by
    have type : ((n.socks.closeTcp h).tcpHandles h).type = .closed := by
      rw [NetSocks.closeTcp, tcpHandles_setTcp_self]
    intro still
    rcases still with unbound | listening | ⟨j, kernel⟩
    · cases type.symm.trans unbound
    · cases type.symm.trans listening
    · obtain ⟨-, -, -, notUnbound, notListen⟩ := ok.kernel j h kernel
      exact owned.elim notUnbound notListen
  exact closed.trans (closed.ok.freeConn unowned below unheard)

theorem ListenersOk.netSocketClose (s : SockRef) :
    Serves none n { n with socks := (netSocketClose env s n.socks).1 } := by
  simp only [CatOs.Net.netSocketClose]
  split
  · split
    · exact ok.congr rfl rfl
    split <;> exact ok.congr rfl rfl
  · rename_i h
    split
    · exact ok.congr rfl rfl
    · exact ok.tcpCloseSocket env h
    · rename_i unbound
      obtain ⟨conn, -, state⟩ := ok.unbound h h.isLt unbound
      refine ok.freeTcp h.isLt conn (.inl unbound) fun port listens => ?_
      cases state.symm.trans listens.2.1
    · rename_i listening
      obtain ⟨conn, used, state⟩ := ok.listening h h.isLt listening
      rw [conn]
      have dropped := ok.tcpDropPending (n.socks.table.conns h).lport
      refine dropped.trans (dropped.ok.freeTcp h.isLt conn (.inr listening) ?_)
      -- The listener heard only the port for which nothing waits any more.
      intro port listens j within
      dsimp only at listens ⊢
      rw [tcpDropPending_idle _ _ (by rw [state]; rfl)] at listens
      rw [← listens.2.2]
      exact not_waits_tcpDropPending _ _ within
    · exact ok.congr rfl rfl

theorem ListenersOk.closeKernel (j : Fin tcpMaxConns) : Serves none n (closeKernel j n) := by
  simp only [CatOs.Net.closeKernel]
  split
  · exact ok.congr rfl rfl
  rename_i l points
  obtain ⟨below, used, state, plain⟩ := ok.kernel j l points
  have dropped := ok.tcpDropPending (n.socks.table.conns l).lport
  -- The socket is closed first, so that no socket stands for the slot that is freed.
  have closed : Serves none n
      { socks := { n.socks with
          table := CatOs.Net.tcpDropPending (n.socks.table.conns l).lport n.socks.table }
        tcpSocks := update n.tcpSocks j none } := by
    have kept : ∀ (k : Fin tcpMaxConns) m, update n.tcpSocks j none k = some m →
        n.tcpSocks k = some m := fun k m still => (update_none_cases still).2
    exact { ok := { slots := dropped.ok.slots, within := dropped.ok.within
                    unbound := dropped.ok.unbound, listening := dropped.ok.listening
                    kernel := fun k m still => dropped.ok.kernel k m (kept k m still)
                    distinct := fun k k' m first second =>
                      ok.distinct k k' m (kept k m first) (kept k' m second) }
            settled := dropped.settled }
  refine closed.trans (closed.ok.freeConn ?_ below ?_)
  · intro owned
    rcases owned with unbound | listening | ⟨k, kernel⟩
    · exact plain.1 unbound
    · exact plain.2 listening
    · obtain ⟨apart, before⟩ := update_none_cases kernel
      exact apart (congrArg Fin.val (ok.distinct k j l before points))
  · intro port listens k within
    dsimp only at listens ⊢
    rw [tcpDropPending_idle _ _ (by rw [state]; rfl)] at listens
    rw [← listens.2.2]
    exact not_waits_tcpDropPending _ _ within

theorem ListenersOk.tcpHandleListen (s : TcpIn) (srcIp : Word) :
    Serves (listenSlot n.socks.table s) n
      { n with socks := { n.socks with table := (tcpHandleListen env n.socks.table s srcIp).1 } } := by
  rcases tcpHandleListen_cases env n.socks.table s srcIp with
    ⟨accepts, i, found, handled⟩ | ⟨refuses, handled⟩
  · rw [handled, listenSlot, if_pos accepts, found]
    obtain ⟨below, free⟩ := TcpTable.findConn_some found
    have free : (n.socks.table.conns i).used = false := by simpa using free
    obtain ⟨state, unaccepted, port⟩ := state_tcpSynAccept env s srcIp n.socks.table.seqGen
      (n.socks.table.conns i)
    generalize (tcpSynAccept env s srcIp n.socks.table.seqGen (n.socks.table.conns i)).conn = c
      at state unaccepted port
    have busy : c.state.isIdle = false := by
      rw [state]
      rfl
    have slot : SlotOk c :=
      { accepted := fun taken => by cases unaccepted.symm.trans taken
        quiet := fun _ idle => by cases busy.symm.trans idle }
    have opened : ListenersOk { n with socks := n.socks.setConn i c } := by
      refine ok.setConn (ok.free below free) slot fun other => ?_
      refine (ok.within other).accept below free busy fun same => ?_
      rw [← same, port]
      exact accepts.2.1
    refine { ok := ?_, settled := fun j _ other settled => ?_ }
    · -- The generator of initial numbers is no listener's business.
      exact (@ListenersOk.calm _ opened
        { n.socks.table.setConn i c with seqGen := n.socks.table.seqGen + 1 }
        fun j within => Calm.refl (opened.slots j within)).ok
    · have apart : j ≠ i := by
        intro same
        exact other (congrArg some same.symm)
      show Settled ((n.socks.table.setConn i c).conns j)
      rw [TcpTable.setConn_of_ne apart]
      exact settled
  · rw [handled, listenSlot, if_neg refuses]
    exact ok.congr rfl rfl

theorem ListenersOk.tcpHandle {seg : List UInt8} {srcIp : Word}
    (sender : ∀ s ∈ tcpParseSegment seg, ¬(srcIp = 0 ∧ s.srcPort = 0)) :
    Serves (openedSlot n.socks.table seg srcIp) n
      { n with socks := { n.socks with table := (tcpHandle env n.socks.table seg srcIp).1 } } := by
  cases parsed : tcpParseSegment seg with
  | none =>
    simp only [CatOs.Tcp.tcpHandle, openedSlot, parsed]
    exact ok.congr rfl rfl
  | some s =>
    simp only [CatOs.Tcp.tcpHandle, openedSlot, parsed]
    cases found : tcpConnFindPeer n.socks.table srcIp s.srcPort with
    | none => exact ok.tcpHandleListen env s srcIp
    | some i =>
      dsimp only
      obtain ⟨below, used, ip, port⟩ := tcpConnFindPeer_some found
      -- A slot that segments are for has a peer, so it holds a connection.
      have busy : (n.socks.table.conns i).state.isIdle = false := by
        by_contra idle
        have quiet := (ok.slots i below).quiet used (by simpa using idle)
        exact sender s parsed ⟨ip.symm.trans quiet.peerIp, port.symm.trans quiet.peerPort⟩
      split
      · have released := ok.calmAt i fun _ => Calm.drop (d := releaseConn (n.socks.table.conns i))
          busy rfl rfl
        exact released.trans (released.ok.tcpHandleListen env s srcIp)
      · exact ok.calmAt i fun _ => calm_tcpHandleConn env (ok.slots i below) used busy s

theorem ListenersOk.tcpTick : Serves none n
    { n with socks := { n.socks with table := (tcpTick env n.socks.table).1 } } := by
  apply ok.calm
  intro i below
  rcases tcpTick_conns env n.socks.table i with same | ⟨calls, ticked⟩
  · rw [same]
    exact Calm.refl (ok.slots i below)
  · rw [ticked]
    exact calm_tcpTickConn env { startIo (n.socks.table.conns i) with calls := calls }
      (ok.slots i below)

theorem ListenersOk.tcpListen (port : Half) : Serves none n (tcpListen port n) := by
  simp only [CatOs.Net.tcpListen]
  split
  · exact ok.congr rfl rfl
  rename_i i found
  obtain ⟨below, free⟩ := TcpTable.findConn_some found
  have free : (n.socks.table.conns i).used = false := by simpa using free
  have unowned := ok.free below free
  have state : (listenConn port (n.socks.table.conns i)).state = .listen := rfl
  have listens : Serves none n
      { n with socks := n.socks.setConn i (listenConn port (n.socks.table.conns i)) } := by
    refine { ok := ok.setConn unowned (slotOk_listenConn port _) fun other => ?_,
             settled := fun j _ _ settled => ?_ }
    · refine (ok.within other).setConn ?_ ?_ ?_
      · exact fun waits => (not_waits_of_idle (by rw [state]; rfl) other waits).elim
      · intro there
        cases free.symm.trans there.1
      · exact fun _ => .inr (tcpPendingCount_le _ other)
    · exact @TcpTable.forall_setConn n.socks.table
        (fun j d => Settled (n.socks.table.conns j) → Settled d) i _ (fun _ => .inr rfl)
        (fun _ _ => id) j settled
  split
  · exact listens
  rename_i j _
  -- The socket of the kernel is the only one that stands for the slot.
  have points : ∀ (k : Fin tcpMaxConns) l, update n.tcpSocks j (some i) k = some l →
      k.val = j ∧ l = i ∨ l ≠ i ∧ n.tcpSocks k = some l := by
    intro k l there
    refine (update_some_cases there).imp_right fun before => ⟨?_, before.2⟩
    intro same
    exact unowned (.inr (.inr ⟨k, same ▸ before.2⟩))
  have here : (n.socks.table.setConn i (listenConn port (n.socks.table.conns i))).conns i =
      listenConn port (n.socks.table.conns i) := TcpTable.setConn_self ..
  refine { ok := { slots := listens.ok.slots, within := listens.ok.within
                   unbound := listens.ok.unbound, listening := listens.ok.listening
                   kernel := fun k l there => ?_, distinct := fun k k' l first second => ?_ }
           settled := listens.settled }
  · rcases points k l there with ⟨-, same⟩ | ⟨-, before⟩
    · subst same
      refine ⟨below, ?_, ?_, fun unbound => unowned (.inl unbound),
        fun listening => unowned (.inr (.inl listening))⟩
      · show ((n.socks.table.setConn l _).conns l).used = true
        rw [here]
        rfl
      · show ((n.socks.table.setConn l _).conns l).state = .listen
        rw [here]
        rfl
    · exact listens.ok.kernel k l before
  · rcases points k l first with ⟨at_, same⟩ | ⟨other, before⟩ <;>
      rcases points k' l second with ⟨at', same'⟩ | ⟨other', before'⟩
    · exact Fin.ext (at_.trans at'.symm)
    · exact (other' same).elim
    · exact (other same').elim
    · exact ok.distinct k k' l before before'

theorem ListenersOk.tcpSetBacklog {s : TcpHandle} {backlog : Nat}
    (room : s.type = .tcpListen → ∀ l ∈ s.conn,
      tcpPendingCount n.socks.table (n.socks.table.conns l).lport ≤ backlog) :
    Serves none n { n with socks := (tcpSetBacklog s backlog n.socks).1 } := by
  simp only [CatOs.Net.tcpSetBacklog]
  split
  · exact ok.congr rfl rfl
  rename_i listening
  split
  · exact ok.congr rfl rfl
  rename_i l conn
  have fits : tcpPendingCount n.socks.table (n.socks.table.conns l).lport ≤ clipBacklog backlog := by
    have asked := room (by simpa using listening) l conn
    have most := tcpPendingCount_le n.socks.table (n.socks.table.conns l).lport
    simp only [clipBacklog]
    split <;> split <;> omega
  -- Only the backlog changes, and only the port of the slot can notice.
  refine { ok := ok.setTable (fun j below => ?_) (fun port => ?_) fun j _ _ used _ => ?_,
           settled := fun j _ _ settled => ?_ }
  · refine @TcpTable.forall_setConn n.socks.table (fun j d => j < tcpMaxConns → SlotOk d) l _
      (fun here => ?_) (fun j _ => ok.slots j) j below
    have slot := ok.slots l here
    exact { accepted := slot.accepted
            quiet := fun used idle =>
              { peerIp := (slot.quiet used idle).peerIp
                peerPort := (slot.quiet used idle).peerPort
                rtoDeadline := (slot.quiet used idle).rtoDeadline
                persistDeadline := (slot.quiet used idle).persistDeadline } }
  · refine (ok.within port).setConn (fun waits => waits) (fun listens => listens) fun listens => ?_
    have same : (n.socks.table.conns l).lport = port := listens.2.2
    rw [← same]
    exact .inr fits
  · exact @TcpTable.forall_setConn n.socks.table (fun j d => (n.socks.table.conns j).used = true →
      d.used = true ∧ d.state = (n.socks.table.conns j).state) l
      { n.socks.table.conns l with backlog := clipBacklog backlog } (fun used => ⟨used, rfl⟩)
      (fun _ _ used => ⟨used, rfl⟩) j used
  · exact @TcpTable.forall_setConn n.socks.table
      (fun j d => Settled (n.socks.table.conns j) → Settled d) l
      { n.socks.table.conns l with backlog := clipBacklog backlog } id (fun _ _ => id) j settled

theorem ListenersOk.listenStep {input : TcpEnv × ListenOp} (allowed : ListenAllowed input n) :
    Serves (input.2.opens n) n (listenStep input n) := by
  obtain ⟨env, op⟩ := input
  cases op with
  | sock op =>
    cases op with
    | openSocket type => exact ok.netSocketOpen type
    | bind s port => exact ok.netSocketBind s port
    | accept h => exact ok.acceptSocket (n.socks.tcpHandles h)
    | tcpClose h => exact ok.tcpCloseSocket env h
    | close s => exact ok.netSocketClose env s
    | abort h => exact allowed.elim
    | send h data =>
      exact @ListenersOk.onConn n ok h (fun io => (tcpSend env io data).1) fun c slot =>
        calm_tcpSend env slot data
    | recv h maxLen =>
      exact @ListenersOk.onConn n ok h (fun io => (tcpRecv env io maxLen).1) fun c slot =>
        calm_tcpRecv env slot maxLen
    | segment seg srcIp => exact ok.tcpHandle env allowed
    | tick => exact ok.tcpTick env
  | listen port => exact ok.tcpListen port
  | setBacklog s backlog => exact ok.tcpSetBacklog allowed
  | acceptSocket s => exact ok.acceptSocket (n.sock s)
  | acceptAbort s => exact ok.acceptAbort (n.sock s)
  | accept s => exact ok.tcpAccept (n.sock s)
  | closeKernel j => exact ok.closeKernel j

end Operations

end CatOs.Net
