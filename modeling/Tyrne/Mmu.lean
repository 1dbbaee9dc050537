import Mathlib.Data.Set.Basic
import Tyrne.Lib.Overwrite

/-!
# What is asked of a memory management unit

The types of `hal/src/mmu.rs` and, as a machine, what the `Mmu` trait promises its callers:
which answers a call may get and what it leaves mapped. `usize` is 64 bits wide on the board
and on the hosts of the tests.
-/

namespace Tyrne.Mmu

open Tyrne.Lib.Runs
open Tyrne.Lib.Overwrite

set_option autoImplicit false

def pageSize : Nat := 4096

structure VirtAddr where
  raw : UInt64
  deriving DecidableEq, Repr

structure PhysAddr where
  raw : UInt64
  deriving DecidableEq, Repr

/-- A physical address that starts a page. -/
structure PhysFrame where
  addr : PhysAddr
  aligned : pageSize ∣ addr.raw.toNat
  deriving DecidableEq, Repr

namespace PhysFrame

def fromAligned (addr : PhysAddr) : Option PhysFrame :=
  if aligned : pageSize ∣ addr.raw.toNat then some ⟨addr, aligned⟩ else none

def asUsize (frame : PhysFrame) : UInt64 := frame.addr.raw

theorem from_aligned_iff (addr : PhysAddr) (frame : PhysFrame) :
    fromAligned addr = some frame ↔ addr = frame.addr := by
  constructor
  · intro built
    unfold fromAligned at built
    split at built
    · cases built
      rfl
    · cases built
  · rintro rfl
    exact dif_pos frame.aligned

end PhysFrame

structure MappingFlags where
  raw : BitVec 32
  deriving DecidableEq, Repr

namespace MappingFlags

def empty : MappingFlags := ⟨0⟩
def write : MappingFlags := ⟨1 <<< 0⟩
def execute : MappingFlags := ⟨1 <<< 1⟩
def user : MappingFlags := ⟨1 <<< 2⟩
def device : MappingFlags := ⟨1 <<< 3⟩
def global : MappingFlags := ⟨1 <<< 4⟩

def fromRaw (bits : BitVec 32) : MappingFlags := ⟨bits⟩

def contains (self other : MappingFlags) : Bool := (self.raw &&& other.raw) == other.raw

def union (self other : MappingFlags) : MappingFlags := ⟨self.raw ||| other.raw⟩

def intersection (self other : MappingFlags) : MappingFlags := ⟨self.raw &&& other.raw⟩

def difference (self other : MappingFlags) : MappingFlags := ⟨self.raw &&& ~~~other.raw⟩

def isEmpty (self : MappingFlags) : Bool := self.raw == 0

def members (self : MappingFlags) : Set (Fin 32) := {place | self.raw.getLsbD place = true}

@[simp] theorem mem_members (flags : MappingFlags) (place : Fin 32) :
    place ∈ flags.members ↔ flags.raw.getLsbD place = true := Iff.rfl

theorem members_injective {left right : MappingFlags} (same : left.members = right.members) :
    left = right := by
  have words : left.raw = right.raw := by
    apply BitVec.eq_of_getLsbD_eq
    intro place inside
    have alike := Set.ext_iff.mp same ⟨place, inside⟩
    exact Bool.eq_iff_iff.mpr alike
  cases left
  cases right
  exact congrArg MappingFlags.mk words

theorem members_union (left right : MappingFlags) :
    (left.union right).members = left.members ∪ right.members := by
  ext place
  simp [union]

theorem members_intersection (left right : MappingFlags) :
    (left.intersection right).members = left.members ∩ right.members := by
  ext place
  simp [intersection]

theorem members_difference (left right : MappingFlags) :
    (left.difference right).members = left.members \ right.members := by
  ext place
  simp [difference]

theorem contains_iff (left right : MappingFlags) :
    left.contains right ↔ right.members ⊆ left.members := by
  rw [← Set.inter_eq_right, ← members_intersection]
  constructor
  · intro contained
    have words : left.intersection right = right :=
      congrArg MappingFlags.mk (beq_iff_eq.mp contained)
    rw [words]
  · intro same
    have words := congrArg raw (members_injective same)
    exact beq_iff_eq.mpr words

theorem is_empty_iff (flags : MappingFlags) : flags.isEmpty ↔ flags.members = ∅ := by
  have none : empty.members = ∅ := by
    ext place
    simp [empty]
  rw [← none]
  constructor
  · intro zero
    rw [show flags = empty from congrArg MappingFlags.mk (beq_iff_eq.mp zero)]
  · intro same
    rw [members_injective same]
    rfl

end MappingFlags

inductive MmuError where
  | alreadyMapped
  | notMapped
  | misalignedAddress
  | outOfFrames
  | invalidFlags
  deriving DecidableEq, Repr

/-- `FrameProvider`, what it has left passed along. -/
structure FrameProvider (Frames : Type) where
  allocFrame : Frames → Option PhysFrame × Frames

/-! ## What the trait promises -/

/-- The calls of the trait. A caller owns its address spaces and names them in the order it
made them. -/
inductive Call where
  | createAddressSpace (root : PhysFrame)
  | activate (space : Nat)
  | map (space : Nat) (va : VirtAddr) (pa : PhysFrame) (flags : MappingFlags)
  | unmap (space : Nat) (va : VirtAddr)
  | invalidateTlbAddress (va : VirtAddr)
  | invalidateTlbAll
  deriving DecidableEq, Repr

inductive Reply where
  | done
  | space (index : Nat)
  | frame (pa : PhysFrame)
  | failed (error : MmuError)
  deriving DecidableEq, Repr

structure Answer where
  call : Call
  reply : Reply
  deriving DecidableEq, Repr

abbrev Mapping : Type := PhysFrame × MappingFlags

/-- What an answered call leaves under an address of an address space, if it changes that. -/
def Answer.change? : Answer → Option ((Nat × VirtAddr) × Option Mapping)
  | ⟨.map space va pa flags, .done⟩ => some ((space, va), some (pa, flags))
  | ⟨.unmap space va, .frame _⟩ => some ((space, va), none)
  | _ => none

theorem change_some {answer : Answer} {space : Nat} {va : VirtAddr} {pa : PhysFrame}
    {flags : MappingFlags} (changed : answer.change? = some ((space, va), some (pa, flags))) :
    answer = ⟨.map space va pa flags, .done⟩ := by
  unfold Answer.change? at changed
  split at changed
  · cases changed
    rfl
  · cases changed
  · cases changed

/-- What an address space is for: where it translates an address to. -/
structure PageTable where
  root : PhysFrame
  mapped : VirtAddr → Option Mapping

structure Translation (Frames : Type) where
  tables : List PageTable
  active : Option PhysFrame
  frames : Frames

variable {Frames : Type}

/-- Frames are taken from the provider, for the tables in between. -/
inductive Draws (provider : FrameProvider Frames) : Frames → Frames → Prop where
  | nothing (frames : Frames) : Draws provider frames frames
  | one {frames middle later : Frames} {frame : PhysFrame}
      (taken : provider.allocFrame frames = (some frame, middle))
      (more : Draws provider middle later) : Draws provider frames later

namespace Translation

def bare (frames : Frames) : Translation Frames := ⟨[], none, frames⟩

def put (translation : Translation Frames) (space : Nat) (table : PageTable) (va : VirtAddr)
    (mapping : Option Mapping) : Translation Frames :=
  { translation with
    tables := translation.tables.set space
      { table with mapped := Function.update table.mapped va mapping } }

def mappings (translation : Translation Frames) (place : Nat × VirtAddr) : Option Mapping :=
  translation.tables[place.1]?.bind fun table => table.mapped place.2

end Translation

/-- One call as the comments of the trait have it, where `aligned` is what it means for an
address to start a page. Which flags can be applied is up to the implementation, and so is
which error a call gets that could get two. -/
inductive Promised (provider : FrameProvider Frames) (aligned : VirtAddr → Prop)
    (supported : MappingFlags → Prop) (before : Translation Frames) :
    Answer → Translation Frames → Prop where
  | created (root : PhysFrame) :
      Promised provider aligned supported before
        ⟨.createAddressSpace root, .space before.tables.length⟩
        { before with tables := before.tables ++ [⟨root, fun _ => none⟩] }
  | activated {space : Nat} {table : PageTable} (found : before.tables[space]? = some table) :
      Promised provider aligned supported before ⟨.activate space, .done⟩
        { before with active := some table.root }
  | mapped {space : Nat} {table : PageTable} {va : VirtAddr} {flags : MappingFlags}
      {frames : Frames} (pa : PhysFrame) (found : before.tables[space]? = some table)
      (draws : Draws provider before.frames frames) (free : table.mapped va = none)
      (onPage : aligned va) (applies : supported flags) :
      Promised provider aligned supported before ⟨.map space va pa flags, .done⟩
        { before.put space table va (some (pa, flags)) with frames := frames }
  | alreadyMapped {space : Nat} {table : PageTable} {va : VirtAddr} {frames : Frames}
      (pa : PhysFrame) (flags : MappingFlags) (found : before.tables[space]? = some table)
      (draws : Draws provider before.frames frames) (held : table.mapped va ≠ none) :
      Promised provider aligned supported before
        ⟨.map space va pa flags, .failed .alreadyMapped⟩ { before with frames := frames }
  | mapMisaligned {space : Nat} {table : PageTable} {va : VirtAddr} {frames : Frames}
      (pa : PhysFrame) (flags : MappingFlags) (found : before.tables[space]? = some table)
      (draws : Draws provider before.frames frames) (off : ¬ aligned va) :
      Promised provider aligned supported before
        ⟨.map space va pa flags, .failed .misalignedAddress⟩ { before with frames := frames }
  | outOfFrames {space : Nat} {table : PageTable} {frames later : Frames} (va : VirtAddr)
      (pa : PhysFrame) (flags : MappingFlags) (found : before.tables[space]? = some table)
      (draws : Draws provider before.frames frames)
      (exhausted : provider.allocFrame frames = (none, later)) :
      Promised provider aligned supported before
        ⟨.map space va pa flags, .failed .outOfFrames⟩ { before with frames := later }
  | invalidFlags {space : Nat} {table : PageTable} {flags : MappingFlags} {frames : Frames}
      (va : VirtAddr) (pa : PhysFrame) (found : before.tables[space]? = some table)
      (draws : Draws provider before.frames frames) (refused : ¬ supported flags) :
      Promised provider aligned supported before
        ⟨.map space va pa flags, .failed .invalidFlags⟩ { before with frames := frames }
  | unmapped {space : Nat} {table : PageTable} {va : VirtAddr} {pa : PhysFrame}
      {flags : MappingFlags} (found : before.tables[space]? = some table)
      (held : table.mapped va = some (pa, flags)) (onPage : aligned va) :
      Promised provider aligned supported before ⟨.unmap space va, .frame pa⟩
        (before.put space table va none)
  | notMapped {space : Nat} {table : PageTable} {va : VirtAddr}
      (found : before.tables[space]? = some table) (free : table.mapped va = none) :
      Promised provider aligned supported before ⟨.unmap space va, .failed .notMapped⟩ before
  | unmapMisaligned {space : Nat} {table : PageTable} {va : VirtAddr}
      (found : before.tables[space]? = some table) (off : ¬ aligned va) :
      Promised provider aligned supported before
        ⟨.unmap space va, .failed .misalignedAddress⟩ before
  | invalidatedAddress (va : VirtAddr) :
      Promised provider aligned supported before ⟨.invalidateTlbAddress va, .done⟩ before
  | invalidatedAll :
      Promised provider aligned supported before ⟨.invalidateTlbAll, .done⟩ before

section Promises

variable {provider : FrameProvider Frames} {aligned : VirtAddr → Prop}
  {supported : MappingFlags → Prop} {before after : Translation Frames}
  {start : Frames}
  {answer : Answer} {trace : List (Transition (Translation Frames) Answer)}

theorem mappings_put {space : Nat} {table : PageTable} {va : VirtAddr}
    (found : before.tables[space]? = some table) (mapping : Option Mapping) :
    (before.put space table va mapping).mappings =
      Function.update before.mappings (space, va) mapping := by
  rcases List.getElem?_eq_some_iff.mp found with ⟨inside, stored⟩
  funext ⟨other, address⟩
  by_cases same : other = space
  · subst same
    by_cases here : address = va
    · subst here
      simp [Translation.put, Translation.mappings, inside]
    · simp [Translation.put, Translation.mappings, inside, here, stored]
  · simp [Translation.put, Translation.mappings, same, Ne.symm same]

theorem mappings_created (root : PhysFrame) :
    Translation.mappings { before with tables := before.tables ++ [⟨root, fun _ => none⟩] } =
      before.mappings := by
  funext ⟨space, va⟩
  simp only [Translation.mappings, List.getElem?_append]
  split
  · rfl
  · next outside =>
      rw [List.getElem?_eq_none (Nat.le_of_not_lt outside)]
      cases space - before.tables.length <;> rfl

theorem Promised.mappings_after (step : Promised provider aligned supported before answer after) :
    after.mappings = match answer.change? with
      | some (place, mapping) => Function.update before.mappings place mapping
      | none => before.mappings := by
  cases step with
  | created root =>
      exact mappings_created root
  | mapped pa found draws free onPage applies => exact mappings_put found _
  | unmapped found held onPage => exact mappings_put found none
  | activated _ | alreadyMapped | mapMisaligned | outOfFrames | invalidFlags | notMapped
  | unmapMisaligned | invalidatedAddress | invalidatedAll => rfl

theorem Promised.mappings_changed {place : Nat × VirtAddr} {mapping : Option Mapping}
    (step : Promised provider aligned supported before answer after)
    (changed : answer.change? = some (place, mapping)) :
    after.mappings = Function.update before.mappings place mapping := by
  have all := step.mappings_after
  rw [changed] at all
  exact all

theorem Promised.mappings_kept (step : Promised provider aligned supported before answer after)
    (unchanged : answer.change? = none) : after.mappings = before.mappings := by
  have all := step.mappings_after
  rw [unchanged] at all
  exact all

def Changes {State : Type} (place : Nat × VirtAddr) (taken : Transition State Answer) : Prop :=
  ∃ mapping, taken.label.change? = some (place, mapping)

theorem promised_remembers
    (run : Run (Promised provider aligned supported) (.bare start) trace after)
    (place : Nat × VirtAddr) :
    (∃ taken, Latest (Changes place) trace taken ∧
      taken.label.change? = some (place, after.mappings place)) ∨
    ((∀ taken ∈ trace, ¬ Changes place taken) ∧ after.mappings place = none) := by
  have last := @run_last_change _ _ _ _ _ (Promised provider aligned supported) Answer.change?
    _ _ _ Translation.mappings (fun _ _ _ step _ _ changed => step.mappings_changed changed)
    (fun _ _ _ step unchanged => step.mappings_kept unchanged) run place
  rcases last with last | ⟨untouched, held⟩
  · exact .inl last
  · refine .inr ⟨?_, held⟩
    rintro taken member ⟨mapping, changed⟩
    exact untouched taken member mapping changed

theorem promised_on_page
    (run : Run (Promised provider aligned supported) (.bare start) trace after)
    {space : Nat} {va : VirtAddr} {pa : PhysFrame} {flags : MappingFlags}
    (held : after.mappings (space, va) = some (pa, flags)) : aligned va ∧ supported flags := by
  rcases promised_remembers run (space, va) with ⟨taken, latest, changed⟩ | ⟨_, bare⟩
  · rw [held] at changed
    rcases run_member run latest.member.1 with ⟨_, _, step, _⟩
    rw [change_some changed] at step
    generalize taken.after = reached at step
    cases step with
    | mapped _ _ _ _ onPage applies => exact ⟨onPage, applies⟩
  · rw [bare] at held
    cases held

theorem promised_gives_back {space : Nat} {va : VirtAddr} {pa : PhysFrame}
    {later : Translation Frames}
    (run : Run (Promised provider aligned supported) (.bare start) trace after)
    (step : Promised provider aligned supported after ⟨.unmap space va, .frame pa⟩ later) :
    ∃ made flags, Latest (Changes (space, va)) trace made ∧
      made.label = ⟨.map space va pa flags, .done⟩ := by
  have held : ∃ flags, after.mappings (space, va) = some (pa, flags) := by
    cases step with
    | unmapped found held _ => exact ⟨_, by rw [Translation.mappings, found]; exact held⟩
  rcases held with ⟨flags, held⟩
  rcases promised_remembers run (space, va) with ⟨made, latest, changed⟩ | ⟨_, bare⟩
  · rw [held] at changed
    exact ⟨made, flags, latest, change_some changed⟩
  · rw [bare] at held
    cases held

end Promises

end Tyrne.Mmu
