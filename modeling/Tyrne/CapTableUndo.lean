import Tyrne.CapTableRun

/-!
# Insertions undone in reverse

Dropping what a sequence of insertions created, the last first, leads back to the table
before it: every entry, every link and the order of the free list are as they were, and
each slot used is one generation older.
-/

namespace Tyrne.CapTable

open Tyrne.Lib.Effect
open Tyrne.Lib.SiblingForest
open Tyrne.Cap
open Tyrne.CapSpace

set_option autoImplicit false

/-- These calls succeeded one after the other, each returning a new handle. -/
inductive Inserted (build : Build) :
    CapabilityTable → List TableOp → List CapHandle → CapabilityTable → Prop where
  | nil (table : CapabilityTable) : Inserted build table [] [] table
  | cons {table middle after : CapabilityTable} {op : TableOp} {ops : List TableOp}
      {handle : CapHandle} {handles : List CapHandle}
      (first : perform build op table = .ok (.handle handle) middle)
      (rest : Inserted build middle ops handles after) :
      Inserted build table (op :: ops) (handle :: handles) after

def dropAll : List CapHandle → TableM Unit
  | [] => pure ()
  | handle :: rest => do
      capDrop handle
      dropAll rest

def advanced (table : CapabilityTable) (used : List Index) : CapabilityTable :=
  { table with slots := Vector.ofFn fun index =>
      if index.val ∈ used then
        { table.slots[index] with generation := table.slots[index].generation + 1 }
      else table.slots[index] }

/-! ## Tables up to generations -/

/-- The tables agree in every entry and link, and in the order of the free list. -/
structure SameShape (table other : CapabilityTable) : Prop where
  head : table.freeHead = other.freeHead
  entries : entryAt table = entryAt other
  links : nextFreeAt table = nextFreeAt other

variable {build : Build} {table other middle after : CapabilityTable}

theorem SameShape.refl (table : CapabilityTable) : SameShape table table := ⟨rfl, rfl, rfl⟩

theorem SameShape.well_formed (same : SameShape table other) (wellFormed : WellFormed other) :
    WellFormed table := by
  have vacant : Vacant table = Vacant other := by
    funext index
    rw [Vacant, Vacant, same.entries]
  have trees : forest table = forest other := by
    funext index
    rw [forest, forest, same.entries]
  constructor
  · constructor
    · rw [same.links, same.head, vacant]
      exact wellFormed.free.list
    · rw [same.entries, same.links]
      exact wellFormed.free.detached
  · rw [trees]
    exact wellFormed.linked
  · rw [same.entries]
    exact wellFormed.shallow

theorem table_ext (same : SameShape table other)
    (generations : ∀ index < capTableCapacity, generationAt table index = generationAt other index) :
    table = other := by
  have slots : table.slots = other.slots := by
    apply Vector.ext
    intro index bound
    have seen := @slot_in_range table index bound
    rw [same.entries, same.links, generations index bound, ← slot_in_range bound] at seen
    rw [Vector.getElem?_eq_getElem bound, Vector.getElem?_eq_getElem bound] at seen
    exact Option.some.inj seen
  cases table
  cases other
  cases slots
  cases same.head
  rfl

theorem slot_at_advanced {index : Index} (bound : index < capTableCapacity) (used : List Index) :
    (advanced table used).slots[index]? = some
      { entry := entryAt table index
        generation := if index ∈ used then generationAt table index + 1
          else generationAt table index
        nextFree := nextFreeAt table index } := by
  have slot : table.slots[index] = ⟨entryAt table index, generationAt table index,
      nextFreeAt table index⟩ := by
    have seen := @slot_in_range table index bound
    rw [Vector.getElem?_eq_getElem bound] at seen
    exact Option.some.inj seen
  rw [Vector.getElem?_eq_getElem bound, advanced, Vector.getElem_ofFn]
  simp only [Fin.getElem_fin, slot]
  split_ifs <;> rfl

theorem advanced_shape (table : CapabilityTable) (used : List Index) :
    SameShape (advanced table used) table := by
  constructor
  · rw [advanced]
  · funext index
    by_cases bound : index < capTableCapacity
    · rw [entryAt, slot_at_advanced bound]
      rfl
    · simp [entryAt, Vector.getElem?_eq_none (Nat.le_of_not_lt bound)]
  · funext index
    by_cases bound : index < capTableCapacity
    · rw [nextFreeAt, slot_at_advanced bound]
      rfl
    · simp [nextFreeAt, Vector.getElem?_eq_none (Nat.le_of_not_lt bound)]

theorem generation_at_advanced {index : Index} (bound : index < capTableCapacity)
    (used : List Index) : generationAt (advanced table used) index =
      if index ∈ used then generationAt table index + 1 else generationAt table index := by
  rw [generationAt, slot_at_advanced bound]
  rfl

/-! ## One insertion -/

/-- What an insertion makes of the table: the head of the free list becomes a root, or the
first child of a live entry. -/
inductive Placed (table : CapabilityTable) (handle : CapHandle) : CapabilityTable → Prop where
  | root (cap : Capability) (depth : Nat) (available : table.freeHead = some handle.index)
      (dated : generationAt table handle.index = handle.generation) :
      Placed table handle (occupy table handle.index ⟨cap, none, none, none, depth⟩)
  | child (cap : Capability) (depth : Nat) {parent : Index} {above : SlotEntry}
      (available : table.freeHead = some handle.index)
      (dated : generationAt table handle.index = handle.generation)
      (live : entryAt table parent = some above) :
      Placed table handle
        (relink (occupy table handle.index ⟨cap, some parent, none, above.firstChild, depth⟩)
          parent fun entry => { entry with firstChild := some handle.index })

theorem handle_returned {action : TableM CapHandle} {handle : CapHandle}
    (ran : (do
      let handle ← action
      pure (TableReply.handle handle) : TableM TableReply) table = .ok (.handle handle) middle) :
    action table = .ok handle middle := by
  cases outcome : action table with
  | ok value state =>
      simp only [bind_run, outcome, and_then_ok, pure_run] at ran
      cases ran
      rfl
  | err error state => simp [bind_run, outcome] at ran
  | fault reason => simp [bind_run, outcome] at ran

section Placing

variable {handle : CapHandle} (wellFormed : WellFormed table)
include wellFormed

theorem placed_of_root {cap : Capability} (ran : insertRoot cap table = .ok handle middle) :
    Placed table handle middle := by
  cases available : table.freeHead with
  | none => cases (insert_root_full available cap).symm.trans ran
  | some head =>
      rcases wellFormed.free.head_vacant available with ⟨bound, _⟩
      cases (insert_root_run available bound cap).symm.trans ran
      exact .root cap 0 available rfl

theorem placed_of_install {cap : Capability} {parent : Option Index} {depth : Nat}
    (nested : ∀ up, parent = some up → ∃ above, entryAt table up = some above)
    (ran : installChild cap parent depth table = .ok handle middle) :
    Placed table handle middle := by
  cases available : table.freeHead with
  | none => cases (install_child_full available cap parent depth).symm.trans ran
  | some head =>
      rcases wellFormed.free.head_vacant available with ⟨bound, _⟩
      cases parent with
      | none =>
          cases (install_child_root available bound cap depth).symm.trans ran
          exact .root cap depth available rfl
      | some up =>
          rcases nested up rfl with ⟨above, live⟩
          cases (install_child_run available bound live cap depth).symm.trans ran
          exact .child cap depth available rfl live

theorem placed_of_copy {src : CapHandle} {newRights : CapRights}
    (ran : capCopy src newRights table = .ok handle middle) : Placed table handle middle := by
  by_cases isLive : ∃ entry, Resolves table src entry
  · rcases isLive with ⟨entry, resolves⟩
    rw [cap_copy_live resolves] at ran
    split_ifs at ran
    · cases ran
    · cases ran
    · refine placed_of_install wellFormed ?_ ran
      intro up same
      rcases wellFormed.parent_live resolves.1 same with ⟨above, live, _⟩
      exact ⟨above, live⟩
  · simp [capCopy, entry_of_stale (not_exists.mp isLive)] at ran

theorem placed_of_derive {src : CapHandle} {newRights : CapRights} {newObject : CapObject}
    (ran : capDerive src newRights newObject table = .ok handle middle) :
    Placed table handle middle := by
  by_cases isLive : ∃ entry, Resolves table src entry
  · rcases isLive with ⟨entry, resolves⟩
    rw [cap_derive_live resolves] at ran
    split_ifs at ran
    · cases ran
    · cases ran
    · cases ran
    · refine placed_of_install wellFormed ?_ ran
      rintro up same
      cases same
      exact ⟨entry, resolves.1⟩
  · simp [capDerive, entry_of_stale (not_exists.mp isLive)] at ran

theorem placed_of_step {op : TableOp} (ran : perform build op table = .ok (.handle handle) middle) :
    Placed table handle middle := by
  cases op with
  | insertRoot cap => exact placed_of_root wellFormed (handle_returned ran)
  | capCopy src newRights => exact placed_of_copy wellFormed (handle_returned ran)
  | capDerive src newRights newObject => exact placed_of_derive wellFormed (handle_returned ran)
  | capRevoke src =>
      cases outcome : capRevoke build src table <;> simp [perform, outcome] at ran
  | capDrop other =>
      cases outcome : capDrop other table <;> simp [perform, outcome] at ran
  | capTake other =>
      cases outcome : capTake other table <;> simp [perform, outcome] at ran

theorem well_formed_of_step {op : TableOp} {reply : TableReply}
    (ran : perform build op table = .ok reply middle) : WellFormed middle := by
  rcases perform_returns wellFormed op with ⟨result, reached, returns⟩
  have same := (returns build).step.unique (show Outcome.Returned _ (.ok reply) middle from ran)
  rw [← same.2]
  exact (returns build).wellFormed

end Placing

/-! ## Undoing one insertion -/

section Undo

variable {handle : CapHandle}

theorem entry_at_child {head parent : Index} {above : SlotEntry} (bound : head < capTableCapacity)
    (vacant : entryAt table head = none) (live : entryAt table parent = some above)
    (entry : SlotEntry) (change : SlotEntry → SlotEntry) :
    entryAt (relink (occupy table head entry) parent change) =
      Function.update (Function.update (entryAt table) head (some entry)) parent
        (some (change above)) := by
  have different : parent ≠ head := by
    rintro rfl
    cases vacant.symm.trans live
  rw [entry_at_relink (in_range_of_entry live), entry_at_occupy bound,
    Function.update_of_ne different, live]
  rfl

/-- The slot an insertion takes is vacant before it and its generation is that of the handle;
no slot becomes vacant or ages. -/
theorem Placed.fresh (wellFormed : WellFormed table) (placed : Placed table handle middle) :
    Vacant table handle.index ∧ generationAt table handle.index = handle.generation ∧
      (∀ index, Vacant middle index → Vacant table index ∧ index ≠ handle.index) ∧
      generationAt middle = generationAt table := by
  cases placed with
  | root cap depth available dated =>
      have vacant := wellFormed.free.head_vacant available
      refine ⟨vacant, dated, ?_, generation_at_occupy vacant.1 _⟩
      rintro index ⟨bound, none⟩
      rw [entry_at_occupy vacant.1, Function.update_apply] at none
      split_ifs at none with taken
      exact ⟨⟨bound, none⟩, taken⟩
  | child cap depth available dated live =>
      have vacant := wellFormed.free.head_vacant available
      refine ⟨vacant, dated, ?_, ?_⟩
      · rintro index ⟨bound, none⟩
        rw [entry_at_child vacant.1 vacant.2 live, Function.update_apply, Function.update_apply]
          at none
        split_ifs at none with atParent taken
        exact ⟨⟨bound, none⟩, taken⟩
      · rw [generation_at_relink (in_range_of_entry live), generation_at_occupy vacant.1]

theorem Placed.undo (wellFormed : WellFormed table) (placed : Placed table handle middle)
    (same : SameShape after middle) (dated : generationAt after handle.index = handle.generation) :
    ∃ undone, capDrop handle after = .ok () undone ∧ SameShape undone table ∧
      generationAt undone =
        Function.update (generationAt after) handle.index (handle.generation + 1) := by
  cases placed with
  | root cap depth available _ =>
      rcases wellFormed.free.head_vacant available with ⟨bound, vacant⟩
      have live : entryAt after handle.index = some ⟨cap, none, none, none, depth⟩ := by
        rw [same.entries, entry_at_occupy bound, Function.update_self]
      refine ⟨_, cap_drop_unlinked ⟨live, dated⟩ (unlink_root_run live rfl) rfl, ?_, ?_⟩
      · refine ⟨available.symm, ?_, ?_⟩
        · rw [entry_at_vacate bound, same.entries, entry_at_occupy bound, Function.update_idem,
            ← vacant, Function.update_eq_self]
        · rw [next_free_at_vacate bound, same.links, same.head, next_free_at_occupy bound,
            Function.update_idem]
          exact Function.update_eq_self _ _
      · rw [generation_at_vacate bound, dated]
  | @child cap depth parent above available _ parentLive =>
      rcases wellFormed.free.head_vacant available with ⟨bound, vacant⟩
      have different : parent ≠ handle.index := by
        rintro rfl
        cases vacant.symm.trans parentLive
      have parentBound := in_range_of_entry parentLive
      have live : entryAt after handle.index =
          some ⟨cap, some parent, none, above.firstChild, depth⟩ := by
        rw [same.entries, entry_at_child bound vacant parentLive,
          Function.update_of_ne different.symm, Function.update_self]
      have aboveLive : entryAt after parent =
          some { above with firstChild := some handle.index } := by
        rw [same.entries, entry_at_child bound vacant parentLive, Function.update_self]
      refine ⟨_, cap_drop_unlinked ⟨live, dated⟩ (unlink_first_run live rfl aboveLive rfl) rfl,
        ?_, ?_⟩
      · refine ⟨available.symm, ?_, ?_⟩
        · rw [entry_at_vacate bound, entry_at_relink parentBound, aboveLive, same.entries,
            entry_at_child bound vacant parentLive, Function.update_idem,
            Function.update_comm different.symm, Function.update_idem]
          have restored : Function.update (Function.update (entryAt table) parent (some above))
              handle.index none = entryAt table := by
            rw [← parentLive, Function.update_eq_self, ← vacant, Function.update_eq_self]
          exact restored
        · rw [next_free_at_vacate bound, next_free_at_relink parentBound, same.links,
            next_free_at_relink parentBound, next_free_at_occupy bound, Function.update_idem]
          have head : (relink after parent fun entry =>
              { entry with firstChild := above.firstChild }).freeHead =
                nextFreeAt table handle.index := same.head
          rw [head, Function.update_eq_self]
      · rw [generation_at_vacate bound, generation_at_relink parentBound, dated]

end Undo

/-! ## Undoing a sequence of insertions -/

theorem Inserted.fresh {ops : List TableOp} {handles : List CapHandle}
    (inserted : Inserted build table ops handles after) (wellFormed : WellFormed table) :
    (∀ handle ∈ handles, Vacant table handle.index ∧
      generationAt table handle.index = handle.generation) ∧
      (handles.map CapHandle.index).Nodup ∧ generationAt after = generationAt table := by
  induction inserted with
  | nil table => exact ⟨fun _ member => absurd member List.not_mem_nil, List.nodup_nil, rfl⟩
  | @cons table middle after op ops handle handles first rest ih =>
      rcases (placed_of_step wellFormed first).fresh wellFormed with
        ⟨vacant, dated, shrinks, generations⟩
      rcases ih (well_formed_of_step wellFormed first) with ⟨later, distinct, laterGenerations⟩
      refine ⟨?_, ?_, laterGenerations.trans generations⟩
      · intro other member
        rcases List.mem_cons.mp member with rfl | inRest
        · exact ⟨vacant, dated⟩
        · rcases later other inRest with ⟨otherVacant, otherDated⟩
          rw [generations] at otherDated
          exact ⟨(shrinks _ otherVacant).1, otherDated⟩
      · rw [List.map_cons, List.nodup_cons]
        refine ⟨?_, distinct⟩
        intro member
        rcases List.mem_map.mp member with ⟨other, inRest, same⟩
        exact (shrinks _ (later other inRest).1).2 same

theorem drop_all_append (front back : List CapHandle) (state : CapabilityTable) :
    dropAll (front ++ back) state =
      (dropAll front state).andThen fun _ => dropAll back := by
  induction front generalizing state with
  | nil => rfl
  | cons handle rest ih =>
      cases outcome : capDrop handle state with
      | ok value reached =>
          simp only [List.cons_append, dropAll, bind_run, outcome, and_then_ok]
          exact ih reached
      | err error reached => simp only [List.cons_append, dropAll, bind_run, outcome]; rfl
      | fault reason => simp only [List.cons_append, dropAll, bind_run, outcome]; rfl

/-- Dropping the new handles in reverse order undoes the sequence, on any table that looks
like the one it left and still knows them. The induction is on the sequence: the rest is
undone first, and does not touch the slot of the first. -/
theorem Inserted.undo {ops : List TableOp} {handles : List CapHandle}
    (inserted : Inserted build table ops handles after) (wellFormed : WellFormed table)
    {start : CapabilityTable} (same : SameShape start after)
    (dated : ∀ handle ∈ handles, generationAt start handle.index = handle.generation) :
    ∃ undone, dropAll handles.reverse start = .ok () undone ∧ SameShape undone table ∧
      ∀ index, generationAt undone index =
        if index ∈ handles.map CapHandle.index then generationAt start index + 1
        else generationAt start index := by
  induction inserted with
  | nil table => exact ⟨start, rfl, same, fun index => rfl⟩
  | @cons table middle after op ops handle handles first rest ih =>
      have placed := placed_of_step wellFormed first
      have middleWellFormed := well_formed_of_step wellFormed first
      rcases ih middleWellFormed same (fun other member => dated other (by simp [member])) with
        ⟨reached, dropped, shape, generations⟩
      have outside : handle.index ∉ handles.map CapHandle.index := by
        intro member
        rcases List.mem_map.mp member with ⟨other, inRest, sameIndex⟩
        have vacant := ((rest.fresh middleWellFormed).1 other inRest).1
        exact ((placed.fresh wellFormed).2.2.1 _ vacant).2 sameIndex
      have stillDated : generationAt reached handle.index = handle.generation := by
        rw [generations, if_neg outside]
        exact dated handle (by simp)
      rcases placed.undo wellFormed shape stillDated with ⟨undone, last, undoneShape, advancedOnce⟩
      refine ⟨undone, ?_, undoneShape, ?_⟩
      · rw [List.reverse_cons, drop_all_append, dropped]
        simp [dropAll, last]
      · intro index
        rw [advancedOnce, Function.update_apply]
        by_cases atHandle : index = handle.index
        · subst atHandle
          simp [dated handle (by simp)]
        · simp [atHandle, generations index]

/-- On every table calls lead to, dropping what a sequence of insertions created, the last
first, succeeds at every step and leaves the table it began with, in every entry, link and the
order of the free list, with the generation of each slot used advanced once. -/
theorem insertions_undone {history : List TableOp} (reached : performAll build history new = some table)
    {ops : List TableOp} {handles : List CapHandle}
    (inserted : Inserted build table ops handles after) :
    dropAll handles.reverse after = .ok () (advanced table (handles.map CapHandle.index)) ∧
      (handles.map CapHandle.index).Nodup := by
  have wellFormed := well_formed_of_calls reached
  rcases inserted.fresh wellFormed with ⟨fresh, distinct, generations⟩
  have dated : ∀ handle ∈ handles, generationAt after handle.index = handle.generation := by
    intro handle member
    rw [generations]
    exact (fresh handle member).2
  rcases inserted.undo wellFormed (.refl after) dated with ⟨undone, dropped, shape, advancedOnce⟩
  have expected := advanced_shape table (handles.map CapHandle.index)
  have same : undone = advanced table (handles.map CapHandle.index) := by
    apply table_ext
    · exact ⟨shape.head.trans expected.head.symm, shape.entries.trans expected.entries.symm,
        shape.links.trans expected.links.symm⟩
    · intro index bound
      rw [advancedOnce, generations, generation_at_advanced bound]
  rw [dropped, same]
  exact ⟨rfl, distinct⟩

def familyOps : List TableOp :=
  [.insertRoot ⟨⟨127⟩, .endpoint ⟨⟨3, 0⟩⟩⟩, .capDerive ⟨0, 0⟩ ⟨127⟩ (.endpoint ⟨⟨3, 0⟩⟩),
    .capCopy ⟨1, 0⟩ .send]

def familyAfter (count : Nat) : CapabilityTable :=
  (performAll ⟨true⟩ (familyOps.take count) new).getD new

theorem family_inserted :
    Inserted ⟨true⟩ new familyOps [⟨0, 0⟩, ⟨1, 0⟩, ⟨2, 0⟩] (familyAfter 3) :=
  .cons (show _ = Outcome.ok _ (familyAfter 1) by decide +kernel)
    (.cons (show _ = Outcome.ok _ (familyAfter 2) by decide +kernel)
      (.cons (show _ = Outcome.ok _ (familyAfter 3) by decide +kernel) (.nil _)))

theorem insertions_undone_family :
    dropAll [⟨2, 0⟩, ⟨1, 0⟩, ⟨0, 0⟩] (familyAfter 3) = .ok () (advanced new [0, 1, 2]) ∧
      [0, 1, 2].Nodup :=
  insertions_undone (show performAll ⟨true⟩ [] new = some new from rfl) family_inserted

end Tyrne.CapTable
