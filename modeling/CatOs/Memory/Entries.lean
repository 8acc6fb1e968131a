import CatOs.Memory.PmmLaws

/-! The entries of tables: which flags and which frame each kind of entry has. -/

namespace CatOs.Memory

def Present (pte : Word) : Prop :=
  hasFlag pte pagePresent = true

def Writable (pte : Word) : Prop :=
  hasFlag pte pagePresent = true ∧ hasFlag pte pageUser = true ∧ hasFlag pte pageRw = true

instance (pte : Word) : Decidable (Present pte) :=
  inferInstanceAs (Decidable (_ = _))

instance (pte : Word) : Decidable (Writable pte) :=
  inferInstanceAs (Decidable (_ ∧ _))

def sharedPte (pte : Word) : Word :=
  if Writable pte then Mm.cowPte pte else pte

def childPte (pte : Word) : Word :=
  if Present pte then sharedPte pte else 0

section Composed

theorem hasFlag_compose {base flags flag : Word} (low : pageFrameMask &&& flag = 0)
    (aligned : base &&& pageFrameMask = base) :
    hasFlag (base ||| flags) flag = hasFlag flags flag := by
  rw [hasFlag_or, ← aligned, hasFlag_and_of_disjoint low, Bool.false_or]

@[simp] theorem and_pageFrameMask_idem (phys : Word) :
    phys &&& pageFrameMask &&& pageFrameMask = phys &&& pageFrameMask := by
  rw [BitVec.and_assoc, BitVec.and_self]

theorem cowPte_eq (pte : Word) :
    Mm.cowPte pte = (pte &&& pageFrameMask) ||| (pagePresent ||| pageUser ||| pageCow) := by
  simp only [Mm.cowPte, BitVec.or_assoc]

theorem hasFlag_cowPte {flag : Word} (low : pageFrameMask &&& flag = 0) (pte : Word) :
    hasFlag (Mm.cowPte pte) flag = hasFlag (pagePresent ||| pageUser ||| pageCow) flag := by
  rw [cowPte_eq, hasFlag_compose low (and_pageFrameMask_idem pte)]

@[simp] theorem pfn_cowPte (pte : Word) : pfn (Mm.cowPte pte) = pfn pte := by
  rw [cowPte_eq, pfn_or (by decide), pfn_and_pageFrameMask]

@[simp] theorem present_cowPte (pte : Word) : Present (Mm.cowPte pte) := by
  rw [Present, hasFlag_cowPte (by decide)]
  decide

theorem cow_cowPte (pte : Word) : hasFlag (Mm.cowPte pte) pageCow = true := by
  rw [hasFlag_cowPte (by decide)]
  decide

theorem not_writable_cowPte (pte : Word) : ¬Writable (Mm.cowPte pte) := by
  rintro ⟨-, -, written⟩
  rw [hasFlag_cowPte (by decide)] at written
  revert written
  decide

theorem childPde_eq (table : Nat) (pde : Word) :
    Mm.childPde table pde = pageAddr table |||
      (pagePresent ||| pageRw ||| (pde &&& (pageUser ||| pagePwt ||| pagePcd))) := by
  simp only [Mm.childPde, BitVec.or_assoc]

theorem hasFlag_childPde {flag : Word} (low : pageFrameMask &&& flag = 0) (table : Nat)
    (pde : Word) : hasFlag (Mm.childPde table pde) flag = (hasFlag (pagePresent ||| pageRw) flag ||
      hasFlag (pde &&& (pageUser ||| pagePwt ||| pagePcd)) flag) := by
  rw [childPde_eq, hasFlag_compose low (pageAddr_and_pageFrameMask table), hasFlag_or]

theorem present_childPde (table : Nat) (pde : Word) :
    hasFlag (Mm.childPde table pde) pagePresent = true := by
  rw [hasFlag_childPde (by decide)]
  have here : hasFlag (pagePresent ||| pageRw) pagePresent = true := by decide
  rw [here, Bool.true_or]

theorem pfn_childPde {table : Nat} (small : table < 1048576) (pde : Word) :
    pfn (Mm.childPde table pde) = table := by
  have low : (pagePresent ||| pageRw ||| (pde &&& (pageUser ||| pagePwt ||| pagePcd))) >>> 12 = 0 := by
    rw [BitVec.ushiftRight_or_distrib, BitVec.ushiftRight_and_distrib]
    have first : (pagePresent ||| pageRw) >>> 12 = 0 := by decide
    have second : (pageUser ||| pagePwt ||| pagePcd) >>> 12 = 0 := by decide
    rw [first, second]
    simp
  rw [childPde_eq, pfn_or low, pfn_pageAddr small]

end Composed

section Shared

variable (pte : Word)

@[simp] theorem pfn_sharedPte : pfn (sharedPte pte) = pfn pte := by
  unfold sharedPte
  split
  · exact pfn_cowPte pte
  · rfl

@[simp] theorem present_sharedPte : Present (sharedPte pte) ↔ Present pte := by
  unfold sharedPte
  split
  · rename_i writable
    exact ⟨fun _ => writable.1, fun _ => present_cowPte pte⟩
  · rfl

theorem not_writable_sharedPte : ¬Writable (sharedPte pte) := by
  unfold sharedPte
  split
  · exact not_writable_cowPte pte
  · assumption

@[simp] theorem sharedPte_idem : sharedPte (sharedPte pte) = sharedPte pte :=
  if_neg (not_writable_sharedPte pte)

@[simp] theorem childPte_sharedPte : childPte (sharedPte pte) = childPte pte := by
  unfold childPte
  rw [sharedPte_idem]
  exact if_congr (present_sharedPte pte) rfl rfl

theorem not_present_zero : ¬Present 0 := by
  decide

@[simp] theorem present_childPte : Present (childPte pte) ↔ Present pte := by
  unfold childPte
  split
  · exact present_sharedPte pte
  · rename_i absent
    exact ⟨fun present => (not_present_zero present).elim, fun present => (absent present).elim⟩

theorem pfn_childPte {pte : Word} (present : Present pte) : pfn (childPte pte) = pfn pte := by
  rw [childPte, if_pos present, pfn_sharedPte]

end Shared

end CatOs.Memory
