import Mathlib.Data.List.Basic
import Mathlib.Data.List.Nodup
import Mathlib.Logic.Function.Basic

/-! Lists linked through a next pointer in each node, and loops that visit every node once. -/

namespace CatOs

section Links

variable {α : Type*} {next : α → Option α} {head : Option α} {nodes : List α}

/-- The nodes that are reached from a head through the next pointers, in order. -/
def Linked (next : α → Option α) : Option α → List α → Prop
  | head, [] => head = none
  | head, node :: rest => head = some node ∧ Linked next (next node) rest

/-- The head is the first node. -/
theorem Linked.head_eq (linked : Linked next head nodes) : head = nodes.head? := by
  cases nodes with
  | nil => exact linked
  | cons node rest => exact linked.1

/-- The next pointers of nodes that are not in the list do not matter. -/
theorem Linked.congr {other : α → Option α} (same : ∀ node ∈ nodes, next node = other node)
    (linked : Linked next head nodes) : Linked other head nodes := by
  induction nodes generalizing head with
  | nil => exact linked
  | cons node rest ih =>
    refine ⟨linked.1, ?_⟩
    rw [← same node List.mem_cons_self]
    exact ih (fun other within => same other (List.mem_cons_of_mem _ within)) linked.2

/-- The nodes that are reached from a head in at most so many steps. -/
def follow (next : α → Option α) : Nat → Option α → List α
  | 0, _ => []
  | _ + 1, none => []
  | fuel + 1, some node => node :: follow next fuel (next node)

/-- Following the pointers for long enough gives the whole list. -/
theorem Linked.follow_eq (linked : Linked next head nodes) {fuel : Nat}
    (enough : nodes.length < fuel) : follow next fuel head = nodes := by
  induction nodes generalizing head fuel with
  | nil =>
    cases fuel with
    | zero => rfl
    | succ fuel =>
      rw [linked]
      rfl
  | cons node rest ih =>
    cases fuel with
    | zero => exact absurd enough (Nat.not_lt_zero _)
    | succ fuel =>
      rw [linked.1, follow, ih linked.2 (Nat.lt_of_succ_lt_succ enough)]

/-- The nodes that are reached first from a head, whatever the last of them leads to. -/
def Leads (next : α → Option α) : Option α → List α → Prop
  | _, [] => True
  | head, node :: rest => head = some node ∧ Leads next (next node) rest

/-- Where the pointer behind some nodes leads. -/
def behind (next : α → Option α) : Option α → List α → Option α
  | head, [] => head
  | _, node :: rest => behind next (next node) rest

/-- Behind some nodes is where the last one leads. -/
theorem behind_of_getLast? {last : α} (ends : nodes.getLast? = some last) :
    behind next head nodes = next last := by
  induction nodes generalizing head with
  | nil => cases ends
  | cons node rest ih =>
    cases rest with
    | nil =>
      obtain rfl : node = last := by simpa using ends
      rfl
    | cons second rest =>
      rw [List.getLast?_cons_cons] at ends
      exact @ih (next node) ends

/-- The pointers of nodes that are not passed do not matter. -/
theorem behind_congr {other : α → Option α} (same : ∀ node ∈ nodes, next node = other node) :
    behind next head nodes = behind other head nodes := by
  induction nodes generalizing head with
  | nil => rfl
  | cons node rest ih =>
    rw [behind, behind, same node List.mem_cons_self]
    exact ih fun node within => same node (List.mem_cons_of_mem _ within)

theorem linked_append {front back : List α} :
    Linked next head (front ++ back) ↔
      Leads next head front ∧ Linked next (behind next head front) back := by
  induction front generalizing head with
  | nil => exact (true_and _).to_iff.symm
  | cons node front ih =>
    rw [List.cons_append, Linked, Leads, ih, behind, and_assoc]

theorem leads_append {front back : List α} :
    Leads next head (front ++ back) ↔
      Leads next head front ∧ Leads next (behind next head front) back := by
  induction front generalizing head with
  | nil => exact (true_and _).to_iff.symm
  | cons node front ih =>
    rw [List.cons_append, Leads, Leads, ih, behind, and_assoc]

/-- The nodes are reached, and the last one leads nowhere. -/
theorem linked_iff_leads : Linked next head nodes ↔ Leads next head nodes ∧
    behind next head nodes = none := by
  have split := @linked_append α next head nodes []
  rwa [List.append_nil] at split

/-- Only the pointers before the last node matter for reaching the nodes. -/
theorem Leads.congr {other : α → Option α} (distinct : nodes.Nodup)
    (same : ∀ node ∈ nodes, nodes.getLast? ≠ some node → next node = other node)
    (leads : Leads next head nodes) : Leads other head nodes := by
  induction nodes generalizing head with
  | nil => trivial
  | cons node rest ih =>
    refine ⟨leads.1, ?_⟩
    cases rest with
    | nil => trivial
    | cons second rest =>
      obtain ⟨fresh, distinct⟩ := List.nodup_cons.mp distinct
      -- The first node is not the last one, so its pointer stays.
      have notLast : (node :: second :: rest).getLast? ≠ some node := by
        rw [List.getLast?_cons_cons]
        exact fun last => fresh (List.mem_of_getLast? last)
      rw [← same node List.mem_cons_self notLast]
      refine ih distinct (fun other within apart => ?_) leads.2
      refine same other (List.mem_cons_of_mem _ within) ?_
      rwa [List.getLast?_cons_cons]

variable [DecidableEq α]

/-- Changing the next pointer of a node outside the list leaves the list alone. -/
theorem Linked.update {node : α} (outside : node ∉ nodes) (value : Option α)
    (linked : Linked next head nodes) : Linked (Function.update next node value) head nodes := by
  apply linked.congr
  intro other within
  have apart : other ≠ node := fun same => outside (same ▸ within)
  rw [Function.update_of_ne apart]

/-- Taking the first node off leaves the rest. -/
theorem Linked.pop {node : α} (fresh : node ∉ nodes)
    (linked : Linked next head (node :: nodes)) :
    Linked (Function.update next node none) (next node) nodes :=
  linked.2.update fresh none

theorem Linked.append {node last : α} (fresh : node ∉ nodes) (distinct : nodes.Nodup)
    (ends : nodes.getLast? = some last) (linked : Linked next head nodes) :
    Linked (Function.update (Function.update next node none) last (some node)) head
      (nodes ++ [node]) := by
  -- The pointers up to the last node stay, and the last one now leads to the new node.
  induction nodes generalizing head with
  | nil => cases ends
  | cons first rest ih =>
    obtain ⟨firstFresh, restDistinct⟩ := List.nodup_cons.mp distinct
    obtain ⟨apart, restFresh⟩ := not_or.mp (List.mem_cons.not.mp fresh)
    refine ⟨linked.1, ?_⟩
    cases rest with
    | nil =>
      -- The first node is the last one.
      obtain rfl : first = last := by simpa using ends
      rw [Function.update_self]
      refine ⟨rfl, ?_⟩
      rw [Function.update_of_ne apart, Function.update_self]
      rfl
    | cons second rest =>
      have endsRest : (second :: rest).getLast? = some last := by
        rw [List.getLast?_cons_cons] at ends
        exact ends
      have lastWithin : last ∈ second :: rest := List.mem_of_getLast? endsRest
      have notLast : first ≠ last := fun same => firstFresh (same ▸ lastWithin)
      rw [Function.update_of_ne notLast, Function.update_of_ne (Ne.symm apart)]
      exact ih restFresh restDistinct endsRest linked.2

end Links

/-- The positions that stepping on visits from one position up to another. -/
def Visits {α : Type*} (step : α → α) : α → α → List α → Prop
  | first, last, [] => first = last
  | first, last, node :: rest => node = first ∧ Visits step (step node) last rest

section Visits

variable {σ ι β : Type*}

/-- What holds before a loop over a list and survives every turn holds after it. -/
theorem foldl_invariant {body : σ → ι → σ} (holds : σ → Prop) (list : List ι)
    (preserved : ∀ s, ∀ i ∈ list, holds s → holds (body s i)) (s : σ) (initially : holds s) :
    holds (list.foldl body s) := by
  induction list generalizing s with
  | nil => exact initially
  | cons first rest ih =>
    apply ih fun s i within => preserved s i (List.mem_cons_of_mem _ within)
    exact preserved s first List.mem_cons_self initially

/-- A projection that every turn leaves alone is the same after a loop over a list. -/
theorem foldl_frame (read : σ → β) {body : σ → ι → σ}
    (untouched : ∀ s i, read (body s i) = read s) (list : List ι) (s : σ) :
    read (list.foldl body s) = read s :=
  foldl_invariant (fun t => read t = read s) list
    (fun t i _ same => (untouched t i).trans same) s rfl

variable [DecidableEq ι]

/--
A loop that changes a table entry by entry, each from its own old value.

The invariant is for what else the changes depend on.
-/
theorem foldl_pointwise (view : σ → ι → β) (body : σ → ι → σ) (change : ι → β → β)
    (holds : σ → Prop) (keeps : ∀ s i, holds s → holds (body s i))
    (steps : ∀ s i, holds s →
      view (body s i) = Function.update (view s) i (change i (view s i)))
    (list : List ι) (distinct : list.Nodup) (s : σ) (initially : holds s) :
    view (list.foldl body s) = fun i => if i ∈ list then change i (view s i) else view s i := by
  -- An entry is changed when its turn comes and by no other turn.
  induction list generalizing s with
  | nil => simp
  | cons first rest ih =>
    obtain ⟨firstFresh, restDistinct⟩ := List.nodup_cons.mp distinct
    rw [List.foldl_cons, ih restDistinct _ (keeps s first initially), steps s first initially]
    funext i
    by_cases here : i = first
    · subst here
      simp [firstFresh]
    · simp [here]

end Visits

end CatOs
