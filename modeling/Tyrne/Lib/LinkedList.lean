import Mathlib.Logic.Function.Basic
import Mathlib.Data.List.Nodup
import Mathlib.Data.List.Perm.Subperm

/-!
# Linked chains

A chain is the list of nodes met from a starting link by following a successor
function to its end. The start and the successor function determine the list,
so a chain that exists is finite and can be reasoned about by induction on it.
-/

namespace Tyrne.Lib.LinkedList

set_option autoImplicit false

variable {Node : Type} {next other : Node → Option Node}

/-- Following `next` from `start` meets exactly `nodes`, in this order. -/
def Chain (next : Node → Option Node) : Option Node → List Node → Prop
  | start, [] => start = none
  | start, node :: rest => start = some node ∧ Chain next (next node) rest

theorem chain_none (nodes : List Node) : Chain next none nodes ↔ nodes = [] := by
  cases nodes <;> simp [Chain]

theorem chain_some (node : Node) (nodes : List Node) :
    Chain next (some node) nodes ↔
      ∃ rest, nodes = node :: rest ∧ Chain next (next node) rest := by
  cases nodes with
  | nil => simp [Chain]
  | cons head rest =>
      constructor
      · rintro ⟨same, tail⟩
        cases same
        exact ⟨rest, rfl, tail⟩
      · rintro ⟨_, same, tail⟩
        cases same
        exact ⟨rfl, tail⟩

theorem chain_unique {start : Option Node} {left right : List Node}
    (leftChain : Chain next start left) (rightChain : Chain next start right) :
    left = right := by
  induction left generalizing start right with
  | nil =>
      cases leftChain
      exact ((chain_none right).mp rightChain).symm
  | cons node rest ih =>
      obtain ⟨rfl, tail⟩ := leftChain
      obtain ⟨_, rfl, otherTail⟩ := (chain_some node right).mp rightChain
      rw [ih tail otherTail]

theorem chain_congr {start : Option Node} {nodes : List Node}
    (chain : Chain next start nodes)
    (agree : ∀ node ∈ nodes, other node = next node) :
    Chain other start nodes := by
  induction nodes generalizing start with
  | nil => exact chain
  | cons node rest ih =>
      refine ⟨chain.1, ?_⟩
      rw [agree node (by simp)]
      exact ih chain.2 fun item member => agree item (by simp [member])

theorem chain_successor_mem {start : Option Node} {nodes : List Node}
    (chain : Chain next start nodes) {node successor : Node}
    (member : node ∈ nodes) (link : next node = some successor) :
    successor ∈ nodes := by
  induction nodes generalizing start with
  | nil => simp at member
  | cons head rest ih =>
      have tail := chain.2
      rcases List.mem_cons.mp member with rfl | later
      · rw [link] at tail
        obtain ⟨remaining, rfl, _⟩ := (chain_some successor rest).mp tail
        simp
      · exact List.mem_cons_of_mem _ (ih tail later)

section Updates

variable [DecidableEq Node]

theorem chain_update_of_not_mem {start : Option Node} {nodes : List Node}
    (chain : Chain next start nodes) {fresh : Node} (link : Option Node)
    (outside : fresh ∉ nodes) :
    Chain (Function.update next fresh link) start nodes := by
  refine chain_congr chain fun node member => ?_
  have different : node ≠ fresh := fun same => outside (same ▸ member)
  exact Function.update_of_ne different link next

theorem chain_push {start : Option Node} {nodes : List Node}
    (chain : Chain next start nodes) {fresh : Node} (outside : fresh ∉ nodes) :
    Chain (Function.update next fresh start) (some fresh) (fresh :: nodes) := by
  refine ⟨rfl, ?_⟩
  rw [Function.update_self]
  exact chain_update_of_not_mem chain start outside

/-- Redirecting the link in front of `removed` past it takes exactly `removed`
out of the chain. -/
theorem chain_unlink {start : Option Node} {before after : List Node}
    {previous removed : Node}
    (chain : Chain next start (before ++ previous :: removed :: after))
    (distinct : (before ++ previous :: removed :: after).Nodup) :
    Chain (Function.update next previous (next removed)) start
      (before ++ previous :: after) := by
  induction before generalizing start with
  | nil =>
      obtain ⟨first, second, tail⟩ := chain
      have outside : previous ∉ after := by
        simp only [List.nil_append, List.nodup_cons, List.mem_cons] at distinct
        exact fun member => distinct.1 (Or.inr member)
      refine ⟨first, ?_⟩
      rw [Function.update_self]
      exact chain_update_of_not_mem tail _ outside
  | cons head rest ih =>
      obtain ⟨first, tail⟩ := chain
      have headFresh : head ≠ previous := by
        rintro rfl
        simp at distinct
      refine ⟨first, ?_⟩
      rw [Function.update_of_ne headFresh]
      exact ih tail (List.nodup_cons.mp distinct).2

theorem chain_predecessor {start : Option Node} {nodes : List Node}
    (chain : Chain next start nodes) {node : Node} (member : node ∈ nodes)
    (later : start ≠ some node) :
    ∃ before previous after, nodes = before ++ previous :: node :: after := by
  induction nodes generalizing start with
  | nil => simp at member
  | cons head rest ih =>
      obtain ⟨rfl, tail⟩ := chain
      have inRest : node ∈ rest := by
        rcases List.mem_cons.mp member with rfl | inRest
        · exact absurd rfl later
        · exact inRest
      by_cases first : next head = some node
      · rw [first] at tail
        obtain ⟨after, rfl, _⟩ := (chain_some node rest).mp tail
        exact ⟨[], head, after, rfl⟩
      · obtain ⟨before, previous, after, rfl⟩ := ih tail inRest first
        exact ⟨head :: before, previous, after, rfl⟩

end Updates

/-! ## Free lists -/

/-- The chain from `head` lists every node that satisfies `free`, once. -/
def FreeList (next : Node → Option Node) (head : Option Node) (free : Node → Prop) : Prop :=
  ∃ nodes, Chain next head nodes ∧ nodes.Nodup ∧ ∀ node, node ∈ nodes ↔ free node

section FreeLists

variable {head : Option Node} {free : Node → Prop}

theorem free_list_head_free {node : Node} (list : FreeList next (some node) free) :
    free node := by
  obtain ⟨nodes, chain, _, members⟩ := list
  obtain ⟨rest, rfl, _⟩ := (chain_some node nodes).mp chain
  exact (members node).mp (by simp)

theorem free_list_congr {other : Node → Option Node} {same : Node → Prop}
    (list : FreeList next head free)
    (links : ∀ node, free node → other node = next node)
    (membership : ∀ node, same node ↔ free node) : FreeList other head same := by
  obtain ⟨nodes, chain, distinct, members⟩ := list
  refine ⟨nodes, chain_congr chain fun node member => links node ((members node).mp member),
    distinct, fun node => ?_⟩
  rw [members node, membership node]

variable [DecidableEq Node]

theorem free_list_pop {node : Node} (list : FreeList next (some node) free) :
    FreeList (Function.update next node none) (next node)
      (fun other => free other ∧ other ≠ node) := by
  obtain ⟨nodes, chain, distinct, members⟩ := list
  obtain ⟨rest, rfl, tail⟩ := (chain_some node nodes).mp chain
  have outside := (List.nodup_cons.mp distinct).1
  refine ⟨rest, chain_update_of_not_mem tail none outside,
    (List.nodup_cons.mp distinct).2, fun other => ?_⟩
  show other ∈ rest ↔ free other ∧ other ≠ node
  rw [← members other]
  constructor
  · intro member
    exact ⟨List.mem_cons_of_mem _ member, fun same => outside (same ▸ member)⟩
  · rintro ⟨member, different⟩
    exact (List.mem_cons.mp member).resolve_left different

theorem free_list_push (list : FreeList next head free) {node : Node}
    (used : ¬ free node) :
    FreeList (Function.update next node head) (some node)
      (fun other => free other ∨ other = node) := by
  obtain ⟨nodes, chain, distinct, members⟩ := list
  have outside : node ∉ nodes := fun member => used ((members node).mp member)
  refine ⟨node :: nodes, chain_push chain outside,
    List.nodup_cons.mpr ⟨outside, distinct⟩, fun other => ?_⟩
  rw [List.mem_cons, members other]
  exact or_comm

end FreeLists

/-- A chain that counts upwards to `size`, as an array of vacant cells starts out. -/
theorem chain_upwards {size : Nat} {next : Nat → Option Nat}
    (upwards : ∀ cell < size, next cell = if cell + 1 < size then some (cell + 1) else none)
    (count first : Nat) (total : first + count = size) :
    Chain next (if first < size then some first else none) (List.range' first count) := by
  induction count generalizing first with
  | zero => simp [Chain, show ¬ first < size by omega]
  | succ count ih =>
      have inside : first < size := by omega
      rw [if_pos inside, List.range'_succ]
      refine ⟨rfl, ?_⟩
      rw [upwards first inside]
      exact ih (first + 1) (by omega)

theorem free_list_initial {size : Nat} {next : Nat → Option Nat}
    (upwards : ∀ cell < size, next cell = if cell + 1 < size then some (cell + 1) else none) :
    FreeList next (if 0 < size then some 0 else none) (· < size) := by
  refine ⟨List.range' 0 size, chain_upwards upwards size 0 (by omega), List.nodup_range', ?_⟩
  intro cell
  simp

theorem length_le_of_nodup {size : Nat} {cells : List Nat} (distinct : cells.Nodup)
    (inside : ∀ cell ∈ cells, cell < size) : cells.length ≤ size := by
  have contained : cells ⊆ List.range size := fun cell member =>
    List.mem_range.mpr (inside cell member)
  have bounded := (List.subperm_of_subset distinct contained).length_le
  simpa using bounded

/-! ## Cells in use -/

section Occupancy

variable {Item : Type} {size cell : Nat} {held : Nat → Option Item}

def occupancy (size : Nat) (held : Nat → Option Item) : Nat :=
  (List.range size).countP fun cell => (held cell).isSome

theorem occupancy_succ (size : Nat) (held : Nat → Option Item) :
    occupancy (size + 1) held = occupancy size held + if (held size).isSome then 1 else 0 := by
  simp [occupancy, List.range_succ, List.countP_append]

theorem occupancy_le : occupancy size held ≤ size := by
  have bounded := @List.countP_le_length _ (fun cell => (held cell).isSome) (List.range size)
  rw [List.length_range] at bounded
  exact bounded

theorem occupancy_congr {Other : Type} {other : Nat → Option Other}
    (same : ∀ cell < size, (other cell).isSome = (held cell).isSome) :
    occupancy size other = occupancy size held := by
  apply List.countP_congr
  intro cell member
  rw [same cell (List.mem_range.mp member)]

theorem occupancy_fill (bound : cell < size) (vacant : held cell = none) (item : Item) :
    occupancy size (Function.update held cell (some item)) = occupancy size held + 1 := by
  induction size with
  | zero => omega
  | succ size ih =>
      rw [occupancy_succ, occupancy_succ]
      by_cases last : cell = size
      · subst last
        have below : occupancy cell (Function.update held cell (some item)) =
            occupancy cell held := by
          apply occupancy_congr
          intro other smaller
          rw [Function.update_of_ne (Nat.ne_of_lt smaller)]
        simp [below, vacant]
      · rw [ih (by omega), Function.update_of_ne (Ne.symm last)]
        omega

theorem occupancy_clear {item : Item} (bound : cell < size) (used : held cell = some item) :
    occupancy size (Function.update held cell none) + 1 = occupancy size held := by
  have cleared : Function.update held cell none cell = none := Function.update_self _ _ _
  have filled := occupancy_fill bound cleared item
  rw [Function.update_idem, ← used, Function.update_eq_self] at filled
  exact filled.symm

theorem occupancy_full : occupancy size held = size ↔ ∀ cell < size, held cell ≠ none := by
  have everywhere := @List.countP_eq_length _ (List.range size) fun cell => (held cell).isSome
  rw [List.length_range] at everywhere
  rw [occupancy, everywhere]
  simp [Option.isSome_iff_ne_none]

theorem free_list_empty {next : Nat → Option Nat} {head : Option Nat}
    (list : FreeList next head fun cell => cell < size ∧ held cell = none) :
    head = none ↔ occupancy size held = size := by
  rcases list with ⟨nodes, chain, _, members⟩
  rw [occupancy_full]
  constructor
  · intro empty cell bound vacant
    rw [empty, chain_none] at chain
    have member := (members cell).mpr ⟨bound, vacant⟩
    simp [chain] at member
  · intro full
    cases head with
    | none => rfl
    | some first =>
        rcases (chain_some first nodes).mp chain with ⟨rest, listed, _⟩
        rcases (members first).mp (by simp [listed]) with ⟨bound, vacant⟩
        exact absurd vacant (full first bound)

end Occupancy

end Tyrne.Lib.LinkedList
