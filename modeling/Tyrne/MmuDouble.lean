import Mathlib.Data.List.AList
import Tyrne.Mmu

/-!
# The memory management unit of the host tests

`test-hal/src/mmu.rs`, and a test that makes address spaces with it and calls it on them in
any order. A `HashMap` is a list of entries with different keys.
-/

namespace Tyrne.MmuDouble

open Tyrne.Lib.Runs
open Tyrne.Mmu

set_option autoImplicit false

structure VecFrameProvider where
  available : List PhysFrame
  deriving DecidableEq, Repr

namespace VecFrameProvider

def remaining (provider : VecFrameProvider) : Nat := provider.available.length

/-- The frames are popped from the end. -/
def allocFrame (provider : VecFrameProvider) : Option PhysFrame × VecFrameProvider :=
  (provider.available.getLast?, ⟨provider.available.dropLast⟩)

def frames : FrameProvider VecFrameProvider := ⟨allocFrame⟩

end VecFrameProvider

structure FakeAddressSpace where
  root : PhysFrame
  mappings : AList fun _ : VirtAddr => Mapping

namespace FakeAddressSpace

def mappingCount (space : FakeAddressSpace) : Nat := space.mappings.keys.length

def lookup (space : FakeAddressSpace) (va : VirtAddr) : Option Mapping :=
  space.mappings.lookup va

end FakeAddressSpace

structure FakeMmu where
  activatedRoot : Option PhysFrame
  tlbAddressInvalidations : List VirtAddr
  tlbAllCount : UInt64

namespace FakeMmu

def new : FakeMmu := ⟨none, [], 0⟩

def createAddressSpace (root : PhysFrame) : FakeAddressSpace := ⟨root, ∅⟩

def activate (space : FakeAddressSpace) (mmu : FakeMmu) : FakeMmu :=
  { mmu with activatedRoot := some space.root }

/-- The provider of frames that `map` is handed is not asked. -/
def map (va : VirtAddr) (pa : PhysFrame) (flags : MappingFlags) (space : FakeAddressSpace) :
    Except MmuError FakeAddressSpace :=
  if va ∈ space.mappings then .error .alreadyMapped
  else .ok { space with mappings := space.mappings.insert va (pa, flags) }

def unmap (va : VirtAddr) (space : FakeAddressSpace) :
    Except MmuError (PhysFrame × FakeAddressSpace) :=
  match space.mappings.extract va with
  | (some (pa, _), mappings) => .ok (pa, { space with mappings := mappings })
  | (none, _) => .error .notMapped

def invalidateTlbAddress (va : VirtAddr) (mmu : FakeMmu) : FakeMmu :=
  { mmu with tlbAddressInvalidations := mmu.tlbAddressInvalidations ++ [va] }

def invalidateTlbAll (mmu : FakeMmu) : FakeMmu := { mmu with tlbAllCount := mmu.tlbAllCount + 1 }

end FakeMmu

/-! ## A test -/

variable {Frames : Type}

/-- The double, the address spaces a test has made, and the provider it hands in. -/
structure Bench (Frames : Type) where
  mmu : FakeMmu
  spaces : List FakeAddressSpace
  frames : Frames

namespace Bench

def fresh (frames : Frames) : Bench Frames := ⟨.new, [], frames⟩

def withSpace (bench : Bench Frames) (space : Nat) (own : FakeAddressSpace) : Bench Frames :=
  { bench with spaces := bench.spaces.set space own }

/-- A call, unless it names an address space that has not been made. -/
def perform (bench : Bench Frames) : Call → Option (Reply × Bench Frames)
  | .createAddressSpace root =>
      some (.space bench.spaces.length,
        { bench with spaces := bench.spaces ++ [FakeMmu.createAddressSpace root] })
  | .activate space =>
      bench.spaces[space]?.map fun own => (.done, { bench with mmu := bench.mmu.activate own })
  | .map space va pa flags =>
      bench.spaces[space]?.map fun own =>
        match FakeMmu.map va pa flags own with
        | .ok changed => (.done, bench.withSpace space changed)
        | .error error => (.failed error, bench)
  | .unmap space va =>
      bench.spaces[space]?.map fun own =>
        match FakeMmu.unmap va own with
        | .ok (pa, changed) => (.frame pa, bench.withSpace space changed)
        | .error error => (.failed error, bench)
  | .invalidateTlbAddress va =>
      some (.done, { bench with mmu := bench.mmu.invalidateTlbAddress va })
  | .invalidateTlbAll => some (.done, { bench with mmu := bench.mmu.invalidateTlbAll })

end Bench

def BenchStep (before : Bench Frames) (answer : Answer) (after : Bench Frames) : Prop :=
  before.perform answer.call = some (answer.reply, after)

section Steps

variable {before after : Bench Frames} {own changed : FakeAddressSpace} {answer : Answer}
  {va : VirtAddr} {pa : PhysFrame} {flags : MappingFlags} {space : Nat}

theorem map_free (free : own.lookup va = none) (pa : PhysFrame) (flags : MappingFlags) :
    FakeMmu.map va pa flags own =
      .ok { own with mappings := own.mappings.insert va (pa, flags) } :=
  if_neg (AList.lookup_eq_none.mp free)

theorem map_held (held : own.lookup va ≠ none) (pa : PhysFrame) (flags : MappingFlags) :
    FakeMmu.map va pa flags own = .error .alreadyMapped :=
  if_pos (by_contra fun free => held (AList.lookup_eq_none.mpr free))

theorem unmap_held (held : own.lookup va = some (pa, flags)) :
    FakeMmu.unmap va own = .ok (pa, { own with mappings := own.mappings.erase va }) := by
  rw [FakeMmu.unmap, AList.extract_eq_lookup_erase, show own.mappings.lookup va = _ from held]

theorem unmap_free (free : own.lookup va = none) :
    FakeMmu.unmap va own = .error .notMapped := by
  rw [FakeMmu.unmap, AList.extract_eq_lookup_erase, show own.mappings.lookup va = _ from free]

/-- Every way a call of the test goes. -/
inductive Served (before : Bench Frames) : Answer → Bench Frames → Prop where
  | created (root : PhysFrame) :
      Served before ⟨.createAddressSpace root, .space before.spaces.length⟩
        { before with spaces := before.spaces ++ [⟨root, ∅⟩] }
  | activated {space : Nat} {own : FakeAddressSpace} (found : before.spaces[space]? = some own) :
      Served before ⟨.activate space, .done⟩
        { before with mmu := { before.mmu with activatedRoot := some own.root } }
  | mapped {space : Nat} {own : FakeAddressSpace} {va : VirtAddr} (pa : PhysFrame)
      (flags : MappingFlags) (found : before.spaces[space]? = some own)
      (free : own.lookup va = none) :
      Served before ⟨.map space va pa flags, .done⟩
        (before.withSpace space { own with mappings := own.mappings.insert va (pa, flags) })
  | alreadyMapped {space : Nat} {own : FakeAddressSpace} {va : VirtAddr} (pa : PhysFrame)
      (flags : MappingFlags) (found : before.spaces[space]? = some own)
      (held : own.lookup va ≠ none) :
      Served before ⟨.map space va pa flags, .failed .alreadyMapped⟩ before
  | unmapped {space : Nat} {own : FakeAddressSpace} {va : VirtAddr} {pa : PhysFrame}
      {flags : MappingFlags} (found : before.spaces[space]? = some own)
      (held : own.lookup va = some (pa, flags)) :
      Served before ⟨.unmap space va, .frame pa⟩
        (before.withSpace space { own with mappings := own.mappings.erase va })
  | notMapped {space : Nat} {own : FakeAddressSpace} {va : VirtAddr}
      (found : before.spaces[space]? = some own) (free : own.lookup va = none) :
      Served before ⟨.unmap space va, .failed .notMapped⟩ before
  | invalidatedAddress (va : VirtAddr) :
      Served before ⟨.invalidateTlbAddress va, .done⟩
        { before with mmu := before.mmu.invalidateTlbAddress va }
  | invalidatedAll :
      Served before ⟨.invalidateTlbAll, .done⟩
        { before with mmu := before.mmu.invalidateTlbAll }

theorem BenchStep.served (step : BenchStep before answer after) : Served before answer after := by
  rcases answer with ⟨call, reply⟩
  cases call with
  | createAddressSpace root =>
      cases step
      exact .created root
  | activate space =>
      rcases Option.map_eq_some_iff.mp step with ⟨own, found, same⟩
      cases same
      exact .activated found
  | map space va pa flags =>
      rcases Option.map_eq_some_iff.mp step with ⟨own, found, same⟩
      by_cases free : own.lookup va = none
      · rw [map_free free] at same
        cases same
        exact .mapped pa flags found free
      · rw [map_held free] at same
        cases same
        exact .alreadyMapped pa flags found free
  | unmap space va =>
      rcases Option.map_eq_some_iff.mp step with ⟨own, found, same⟩
      cases held : own.lookup va with
      | none =>
          rw [unmap_free held] at same
          cases same
          exact .notMapped found held
      | some mapping =>
          rw [unmap_held (show own.lookup va = some (mapping.1, mapping.2) from held)] at same
          cases same
          exact .unmapped found held
  | invalidateTlbAddress va =>
      cases step
      exact .invalidatedAddress va
  | invalidateTlbAll =>
      cases step
      exact .invalidatedAll

end Steps

/-! ## The promise kept -/

def FakeAddressSpace.table (space : FakeAddressSpace) : PageTable := ⟨space.root, space.lookup⟩

def Bench.translation (bench : Bench Frames) : Translation Frames :=
  ⟨bench.spaces.map FakeAddressSpace.table, bench.mmu.activatedRoot, bench.frames⟩

/-- If the call mapped an address, then one on a page boundary with flags that can be
applied. -/
def Fits (aligned : VirtAddr → Prop) (supported : MappingFlags → Prop) (answer : Answer) :
    Prop :=
  ∀ space va pa flags, answer = ⟨.map space va pa flags, .done⟩ → aligned va ∧ supported flags

section Keeping

variable {provider : FrameProvider Frames} {aligned : VirtAddr → Prop}
  {supported : MappingFlags → Prop} {before after : Bench Frames} {own : FakeAddressSpace}
  {answer : Answer} {frames : Frames} {space : Nat} {va : VirtAddr}
  {trace : List (Transition (Bench Frames) Answer)}

theorem table_insert (own : FakeAddressSpace) (va : VirtAddr) (mapping : Mapping) :
    FakeAddressSpace.table { own with mappings := own.mappings.insert va mapping } =
      { own.table with mapped := Function.update own.table.mapped va (some mapping) } := by
  refine congrArg (PageTable.mk own.root) ?_
  funext other
  by_cases same : other = va
  · subst same
    rw [Function.update_self]
    exact AList.lookup_insert _
  · rw [Function.update_of_ne same]
    exact AList.lookup_insert_ne same

theorem table_erase (own : FakeAddressSpace) (va : VirtAddr) :
    FakeAddressSpace.table { own with mappings := own.mappings.erase va } =
      { own.table with mapped := Function.update own.table.mapped va none } := by
  refine congrArg (PageTable.mk own.root) ?_
  funext other
  by_cases same : other = va
  · subst same
    rw [Function.update_self]
    exact AList.lookup_erase _ _
  · rw [Function.update_of_ne same]
    exact AList.lookup_erase_ne same

theorem translation_found (found : before.spaces[space]? = some own) :
    before.translation.tables[space]? = some own.table := by
  rw [Bench.translation, List.getElem?_map, found]
  rfl

theorem mappings_found (found : before.spaces[space]? = some own) (va : VirtAddr) :
    before.translation.mappings (space, va) = own.lookup va := by
  rw [Translation.mappings, translation_found found]
  rfl

/-- A call of the double that maps no address it should not is one the trait allows, as long
as what was mapped before was on page boundaries. -/
theorem Served.promised (served : Served before answer after)
    (fits : Fits aligned supported answer)
    (onPages : ∀ space va mapping, before.translation.mappings (space, va) = some mapping →
      aligned va) :
    Promised provider aligned supported before.translation answer after.translation := by
  cases served with
  | created root =>
      have promised := @Promised.created _ provider aligned supported before.translation root
      rw [show before.translation.tables.length = before.spaces.length from
        List.length_map _, show (⟨root, fun _ => none⟩ : PageTable) =
        FakeAddressSpace.table ⟨root, ∅⟩ from rfl] at promised
      simpa only [Bench.translation, List.map_append, List.map_cons, List.map_nil] using promised
  | activated found => exact .activated (translation_found found)
  | @mapped space own va pa flags found free =>
      rcases fits space va pa flags rfl with ⟨onPage, applies⟩
      have promised := @Promised.mapped _ provider aligned supported before.translation space
        own.table va flags _ pa (translation_found found) (.nothing _) free onPage applies
      rw [Translation.put, ← table_insert] at promised
      simpa only [Bench.translation, Bench.withSpace, List.map_set] using promised
  | alreadyMapped pa flags found held =>
      exact .alreadyMapped pa flags (translation_found found) (.nothing _) held
  | @unmapped space own va pa flags found held =>
      have onPage := onPages space va (pa, flags) (by rw [mappings_found found, held])
      have promised := @Promised.unmapped _ provider aligned supported before.translation space
        own.table va pa flags (translation_found found) held onPage
      rw [Translation.put, ← table_erase] at promised
      simpa only [Bench.translation, Bench.withSpace, List.map_set] using promised
  | notMapped found free => exact .notMapped (translation_found found) free
  | invalidatedAddress va => exact .invalidatedAddress va
  | invalidatedAll => exact .invalidatedAll

/-- What a transition of the test is to the promise. -/
def promisedOf (taken : Transition (Bench Frames) Answer) :
    Transition (Translation Frames) Answer :=
  ⟨taken.before.translation, taken.label, taken.after.translation⟩

theorem run_promised (run : Run BenchStep (.fresh frames) trace after)
    (fits : ∀ answer ∈ labels trace, Fits aligned supported answer) :
    Run (Promised provider aligned supported) (.bare frames) (trace.map promisedOf)
      after.translation := by
  induction run with
  | nil => exact .nil
  | @snoc trace middle after answer earlier step ih =>
      simp only [labels_snoc, List.mem_append, List.mem_singleton] at fits
      have sofar := ih fun answer member => fits answer (.inl member)
      rw [List.map_append]
      refine .snoc sofar (BenchStep.served step |>.promised (fits _ (.inr rfl)) ?_)
      intro space va mapping held
      exact (promised_on_page sofar held).1

end Keeping

/-! ## What the double remembers -/

def Answer.maps (space : Nat) : Answer → Bool
  | ⟨.map other _ _ _, .done⟩ => other == space
  | _ => false

def Answer.unmaps (space : Nat) : Answer → Bool
  | ⟨.unmap other _, .frame _⟩ => other == space
  | _ => false

def Answer.invalidated? : Answer → Option VirtAddr
  | ⟨.invalidateTlbAddress va, _⟩ => some va
  | _ => none

/-- How many mappings an address space has, none before it is made. -/
def Bench.countAt (bench : Bench Frames) (space : Nat) : Nat :=
  (bench.spaces[space]?.map FakeAddressSpace.mappingCount).getD 0

section Memory

variable {before after : Bench Frames} {own changed : FakeAddressSpace} {answer : Answer}
  {frames : Frames} {space : Nat} {va : VirtAddr} {pa : PhysFrame}
  {trace : List (Transition (Bench Frames) Answer)}

theorem double_remembers (run : Run BenchStep (.fresh frames) trace after)
    (found : after.spaces[space]? = some own) (va : VirtAddr) :
    (∃ taken, Latest (Changes (space, va)) trace taken ∧
      taken.label.change? = some ((space, va), own.lookup va)) ∨
    ((∀ taken ∈ trace, ¬ Changes (space, va) taken) ∧ own.lookup va = none) := by
  have promised := @run_promised _ ⟨fun frames => (none, frames)⟩ (fun _ => True) (fun _ => True)
    _ _ _ run fun _ _ _ _ _ _ _ => ⟨trivial, trivial⟩
  rw [← mappings_found found]
  rcases promised_remembers promised (space, va) with ⟨taken, latest, left⟩ | ⟨untouched, bare⟩
  · rcases latest_map latest with ⟨source, own, rfl⟩
    exact .inl ⟨source, own, left⟩
  · refine .inr ⟨?_, bare⟩
    intro taken member
    exact untouched (promisedOf taken) (List.mem_map_of_mem member)

theorem double_gives_back {later : Bench Frames}
    (run : Run BenchStep (.fresh frames) trace after)
    (step : BenchStep after ⟨.unmap space va, .frame pa⟩ later) :
    ∃ made flags, Latest (Changes (space, va)) trace made ∧
      made.label = ⟨.map space va pa flags, .done⟩ := by
  have promised := @run_promised _ ⟨fun frames => (none, frames)⟩ (fun _ => True) (fun _ => True)
    _ _ _ run fun _ _ _ _ _ _ _ => ⟨trivial, trivial⟩
  have kept := @Served.promised _ ⟨fun frames => (none, frames)⟩ (fun _ => True) (fun _ => True)
    _ _ _ step.served (fun _ _ _ _ _ => ⟨trivial, trivial⟩) fun _ _ _ _ => trivial
  rcases promised_gives_back promised kept with ⟨made, flags, latest, label⟩
  rcases latest_map latest with ⟨source, own, rfl⟩
  exact ⟨source, flags, own, label⟩

theorem mapping_count_insert (free : own.lookup va = none) (mapping : Mapping) :
    FakeAddressSpace.mappingCount { own with mappings := own.mappings.insert va mapping } =
      own.mappingCount + 1 := by
  have absent : va ∉ own.mappings.keys := fun member =>
    AList.lookup_eq_none.mp free (AList.mem_keys.mpr member)
  simp only [FakeAddressSpace.mappingCount, AList.keys_insert, List.erase_of_not_mem absent,
    List.length_cons]

theorem mapping_count_erase (held : own.lookup va ≠ none) :
    FakeAddressSpace.mappingCount { own with mappings := own.mappings.erase va } + 1 =
      own.mappingCount := by
  have present : va ∈ own.mappings.keys :=
    AList.mem_keys.mp (by_contra fun absent => held (AList.lookup_eq_none.mpr absent))
  have positive := List.length_pos_of_mem present
  simp only [FakeAddressSpace.mappingCount, AList.keys_erase, List.length_erase_of_mem present]
  omega

theorem count_found (found : before.spaces[space]? = some own) :
    before.countAt space = own.mappingCount := by
  rw [Bench.countAt, found]
  rfl

theorem count_with_space (found : before.spaces[space]? = some own) (changed : FakeAddressSpace)
    (other : Nat) :
    (before.withSpace space changed).countAt other =
      if other = space then changed.mappingCount else before.countAt other := by
  have inside := (List.getElem?_eq_some_iff.mp found).1
  by_cases same : other = space
  · subst same
    simp [Bench.countAt, Bench.withSpace, inside]
  · simp [Bench.countAt, Bench.withSpace, same, Ne.symm same]

theorem count_created (root : PhysFrame) (space : Nat) :
    Bench.countAt { before with spaces := before.spaces ++ [⟨root, ∅⟩] } space =
      before.countAt space := by
  simp only [Bench.countAt, List.getElem?_append]
  split
  · rfl
  · next outside =>
      rw [List.getElem?_eq_none (Nat.le_of_not_lt outside)]
      cases space - before.spaces.length <;> rfl

theorem Served.counted (served : Served before answer after) (space : Nat) :
    after.countAt space + (Answer.unmaps space answer).toNat =
      before.countAt space + (Answer.maps space answer).toNat := by
  cases served with
  | created root => rw [count_created]; rfl
  | @mapped other own va pa flags found free =>
      rw [count_with_space found, mapping_count_insert free]
      by_cases same : space = other
      · subst same
        simp [Answer.maps, Answer.unmaps, count_found found]
      · simp [Answer.maps, Answer.unmaps, same, Ne.symm same]
  | @unmapped other own va pa flags found held =>
      have fewer := mapping_count_erase (show own.lookup va ≠ none by simp [held])
      rw [count_with_space found]
      by_cases same : space = other
      · subst same
        simp [Answer.maps, Answer.unmaps, count_found found, fewer]
      · simp [Answer.maps, Answer.unmaps, same, Ne.symm same]
  | activated _ | alreadyMapped | notMapped | invalidatedAddress | invalidatedAll => rfl

theorem run_counted (run : Run BenchStep (.fresh frames) trace after) (space : Nat) :
    after.countAt space + (labels trace).countP (Answer.unmaps space) =
      (labels trace).countP (Answer.maps space) := by
  induction run with
  | nil => rfl
  | @snoc trace middle after answer earlier step ih =>
      have one := (BenchStep.served step).counted space
      have tally : ∀ chosen : Answer → Bool,
          (labels (trace ++ [⟨middle, answer, after⟩])).countP chosen =
            (labels trace).countP chosen + (chosen answer).toNat := by
        intro chosen
        rw [labels_snoc, List.countP_append, List.countP_singleton]
        cases chosen answer <;> rfl
      rw [tally, tally]
      omega

theorem Served.recorded (served : Served before answer after) :
    after.frames = before.frames ∧ after.mmu.tlbAddressInvalidations =
      before.mmu.tlbAddressInvalidations ++ (Answer.invalidated? answer).toList := by
  cases served with
  | invalidatedAddress va => exact ⟨rfl, rfl⟩
  | created _ | activated | mapped | alreadyMapped | unmapped | notMapped | invalidatedAll =>
      exact ⟨rfl, (List.append_nil _).symm⟩

theorem run_recorded (run : Run BenchStep (.fresh frames) trace after) :
    after.frames = frames ∧ after.mmu.tlbAddressInvalidations =
      (labels trace).filterMap Answer.invalidated? := by
  induction run with
  | nil => exact ⟨rfl, rfl⟩
  | @snoc trace middle after answer earlier step ih =>
      rcases (BenchStep.served step).recorded with ⟨sameFrames, recorded⟩
      refine ⟨sameFrames.trans ih.1, ?_⟩
      rw [recorded, ih.2, labels_snoc, filter_map_snoc]

/-- Whatever address spaces are made and however the calls on them interleave: an address
space translates an address as the last call that changed it there left it, it counts the
mappings made and not taken away, a mapping taken away is the last one made, and the frames
handed in are never touched. -/
theorem mmu_double_remembers (run : Run BenchStep (.fresh frames) trace after) :
    (∀ space own, after.spaces[space]? = some own →
      (∀ va,
        (∃ taken, Latest (Changes (space, va)) trace taken ∧
          taken.label.change? = some ((space, va), own.lookup va)) ∨
        ((∀ taken ∈ trace, ¬ Changes (space, va) taken) ∧ own.lookup va = none)) ∧
      own.mappingCount + (labels trace).countP (Answer.unmaps space) =
        (labels trace).countP (Answer.maps space)) ∧
    (∀ front taken back space va pa, trace = front ++ taken :: back →
      taken.label = ⟨.unmap space va, .frame pa⟩ →
      ∃ made flags, Latest (Changes (space, va)) front made ∧
        made.label = ⟨.map space va pa flags, .done⟩) ∧
    after.frames = frames ∧
    after.mmu.tlbAddressInvalidations = (labels trace).filterMap Answer.invalidated? := by
  refine ⟨?_, ?_, run_recorded run⟩
  · intro space own found
    refine ⟨double_remembers run found, ?_⟩
    have counted := run_counted run space
    rwa [count_found found] at counted
  · rintro front taken back space va pa rfl label
    rcases run_at run with ⟨early, step⟩
    rw [label] at step
    exact double_gives_back early step

end Memory

/-! ## One page mapped twice -/

def pageAt (base : UInt64) (aligned : pageSize ∣ base.toNat) : PhysFrame := ⟨⟨base⟩, aligned⟩

def rootPage : PhysFrame := pageAt 0x1000 (by decide)
def firstPage : PhysFrame := pageAt 0x8000 (by decide)
def secondPage : PhysFrame := pageAt 0x9000 (by decide)

def mappedTwice : List Answer :=
  [⟨.createAddressSpace rootPage, .space 0⟩, ⟨.map 0 ⟨0x4000⟩ firstPage .write, .done⟩,
    ⟨.map 0 ⟨0x4000⟩ secondPage .write, .failed .alreadyMapped⟩,
    ⟨.unmap 0 ⟨0x4000⟩, .frame firstPage⟩]

theorem mapped_twice_run : ∃ trace after own,
    Run BenchStep (.fresh (⟨[]⟩ : VecFrameProvider)) trace after ∧ labels trace = mappedTwice ∧
      after.spaces[0]? = some own := by
  have first := @run_single _ _ BenchStep (.fresh (⟨[]⟩ : VecFrameProvider)) _
    ⟨.createAddressSpace rootPage, .space 0⟩ rfl
  have second := run_append first (@run_single _ _ BenchStep _ _
    ⟨.map 0 ⟨0x4000⟩ firstPage .write, .done⟩ rfl)
  have third := run_append second (@run_single _ _ BenchStep _ _
    ⟨.map 0 ⟨0x4000⟩ secondPage .write, .failed .alreadyMapped⟩ rfl)
  have fourth := run_append third (@run_single _ _ BenchStep _ _
    ⟨.unmap 0 ⟨0x4000⟩, .frame firstPage⟩ rfl)
  exact ⟨_, _, _, fourth, rfl, rfl⟩

theorem mmu_double_remembers_twice : ∃ (after : Bench VecFrameProvider) (own : FakeAddressSpace),
    after.spaces[0]? = some own ∧ own.mappingCount = 0 ∧ after.frames = ⟨[]⟩ := by
  rcases mapped_twice_run with ⟨trace, after, own, run, same, found⟩
  rcases mmu_double_remembers run with ⟨spaces, _, frames, _⟩
  refine ⟨after, own, found, ?_, frames⟩
  have counted := (spaces 0 own found).2
  rw [same] at counted
  have unmaps : mappedTwice.countP (Answer.unmaps 0) = 1 := by decide
  have maps : mappedTwice.countP (Answer.maps 0) = 1 := by decide
  omega

end Tyrne.MmuDouble
