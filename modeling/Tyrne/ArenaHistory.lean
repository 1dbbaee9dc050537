import Mathlib.Algebra.Group.Nat.Defs
import Mathlib.Data.List.Induction
import Tyrne.Lib.Ledger
import Tyrne.Lib.Runs
import Tyrne.ObjArena

/-!
# An arena is a bounded map

Along every run of arena operations, as long as no slot is freed so often that its
generation comes round, an arena answers like a ledger of slot ids: ids are handed out
once, a value stays under its id until it is freed, and an arena is full exactly when
as many values are stored as it has slots.
-/

namespace Tyrne.ObjArena

open Tyrne.Lib.Effect
open Tyrne.Lib.LinkedList
open Tyrne.Lib.Ledger
open Tyrne.Lib.Runs
open Tyrne.Cap

set_option autoImplicit false

variable {Value : Type} {size : Nat}

abbrev ArenaOp (Value : Type) : Type := Op SlotId Value

abbrev ArenaCall (Value : Type) : Type := Call SlotId Value

abbrev ArenaTrace (Value : Type) (size : Nat) : Type :=
  List (Transition (Arena Value size) (ArenaCall Value))

def perform (build : Build) :
    ArenaOp Value → Eff Fault (Arena Value size) ObjError (Reply SlotId Value)
  | .allocate value => do
      let id ← allocate build value
      pure (.key id)
  | .free id => do
      let value ← free id
      pure (.value value)
  | .get id => do
      let arena ← read
      pure (.value (get arena id))
  | .getMut id change => do
      let value ← getMut id change
      pure (.value value)

def ArenaStep (build : Build) (arena : Arena Value size) (call : ArenaCall Value)
    (after : Arena Value size) : Prop :=
  perform build call.op arena = .ok call.reply after

instance [DecidableEq Value] (build : Build) (arena : Arena Value size) (call : ArenaCall Value)
    (after : Arena Value size) : Decidable (ArenaStep build arena call after) :=
  inferInstanceAs (Decidable (perform build call.op arena = .ok call.reply after))

/-- The calls of a run, entered into a ledger. -/
def ledgerOf (trace : ArenaTrace Value size) : Book SlotId Value :=
  trace.foldl (fun book taken => book.record taken.label) Book.empty

def frees (index : Index) (call : ArenaCall Value) : Bool :=
  match call.op, call.reply with
  | .free id, .value (some _) => id.index == index
  | _, _ => false

def freedAt (index : Index) (trace : ArenaTrace Value size) : Nat :=
  trace.countP fun taken => frees index taken.label

/-! ## Reading and changing in place -/

section Reading

variable {arena : Arena Value size} {id : SlotId}

theorem get_eq (arena : Arena Value size) (id : SlotId) :
    get arena id =
      if generationAt arena id.index = id.generation then entryAt arena id.index else none := by
  by_cases bound : id.index < size
  · by_cases same : generationAt arena id.index = id.generation
    · simp [get, slot_in_range bound, same]
    · simp [get, slot_in_range bound, same]
  · have outside : arena.slots[id.index]? = none :=
      Vector.getElem?_eq_none (Nat.le_of_not_lt bound)
    simp [get, outside, entryAt]

def replace (arena : Arena Value size) (index : Index) (value : Value) : Arena Value size :=
  writeSlot arena index ⟨some value, generationAt arena index, nextFreeAt arena index⟩

section Replaced

variable {index : Index} (bound : index < size) (value : Value)
include bound

theorem slot_at_replace (other : Index) :
    (replace arena index value).slots[other]? =
      if other = index then
        some ⟨some value, generationAt arena index, nextFreeAt arena index⟩
      else arena.slots[other]? :=
  slot_at_written bound _ arena.freeHead other

theorem entry_at_replace :
    entryAt (replace arena index value) = Function.update (entryAt arena) index (some value) := by
  funext other
  by_cases same : other = index
  · simp [entryAt, slot_at_replace bound, same]
  · simp [entryAt, slot_at_replace bound, same]

theorem generation_at_replace :
    generationAt (replace arena index value) = generationAt arena := by
  funext other
  by_cases same : other = index
  · subst same
    rw [generationAt, slot_at_replace bound, if_pos rfl]
    rfl
  · simp [generationAt, slot_at_replace bound, same]

theorem next_free_at_replace :
    nextFreeAt (replace arena index value) = nextFreeAt arena := by
  funext other
  by_cases same : other = index
  · subst same
    rw [nextFreeAt, slot_at_replace bound, if_pos rfl]
    rfl
  · simp [nextFreeAt, slot_at_replace bound, same]

end Replaced

theorem get_mut_stale (stale : get arena id = none) (change : Value → Value) :
    getMut id change arena = .ok none arena := by
  by_cases bound : id.index < size
  · by_cases same : generationAt arena id.index = id.generation
    · rw [get_eq, if_pos same] at stale
      simp [getMut, slot_in_range bound, same, stale]
    · simp [getMut, slot_in_range bound, same]
  · simp [getMut, Vector.getElem?_eq_none (Nat.le_of_not_lt bound)]

theorem get_some {value : Value} (found : get arena id = some value) :
    generationAt arena id.index = id.generation ∧ entryAt arena id.index = some value := by
  rw [get_eq] at found
  split at found
  · next same => exact ⟨same, found⟩
  · cases found

theorem get_mut_run {value : Value} (found : get arena id = some value)
    (change : Value → Value) :
    getMut id change arena = .ok (some value) (replace arena id.index (change value)) := by
  rcases get_some found with ⟨same, stored⟩
  have bound := in_range_of_entry stored
  simp [getMut, slot_in_range bound, same, stored, replace]

theorem WellFormed.replace (wellFormed : WellFormed arena) {index : Index} {old : Value}
    (stored : entryAt arena index = some old) (value : Value) :
    WellFormed (replace arena index value) := by
  have bound := in_range_of_entry stored
  apply free_list_congr wellFormed
  · intro node _
    rw [next_free_at_replace bound]
  · intro node
    simp only [Vacant, entry_at_replace bound]
    by_cases same : node = index
    · simp [same, stored]
    · simp [same]

/-! ## What ids resolve to -/

theorem slot_id_ext {left right : SlotId} (index : left.index = right.index)
    (generation : left.generation = right.generation) : left = right := by
  cases left
  cases right
  simp_all

theorem get_store {head : Index} (bound : head < size) (value : Value) :
    get (store arena head value) =
      Function.update (get arena) ⟨head, generationAt arena head⟩ (some value) := by
  funext other
  rw [get_eq, generation_at_store bound, entry_at_store bound]
  by_cases same : other = ⟨head, generationAt arena head⟩
  · subst same
    simp
  · rw [Function.update_of_ne same, get_eq]
    by_cases index : other.index = head
    · have different : generationAt arena other.index ≠ other.generation := by
        intro generation
        exact same (slot_id_ext index (by rw [← generation, index]))
      rw [if_neg different, if_neg different]
    · rw [Function.update_of_ne index]

section Live

variable {value : Value} (found : get arena id = some value)
include found

theorem get_other {other : SlotId} (different : other ≠ id) (index : other.index = id.index) :
    get arena other = none := by
  rw [get_eq, if_neg]
  intro generation
  apply different
  exact slot_id_ext index (by rw [← generation, index, (get_some found).1])

theorem get_release : get (release arena id.index) = Function.update (get arena) id none := by
  have bound := in_range_of_entry (get_some found).2
  funext other
  rw [get_eq, generation_at_release bound, entry_at_release bound]
  by_cases same : other = id
  · subst same
    simp
  · rw [Function.update_of_ne same]
    by_cases index : other.index = id.index
    · rw [get_other found same index, index]
      simp
    · rw [Function.update_of_ne index, Function.update_of_ne index, get_eq]

theorem get_replace (later : Value) :
    get (replace arena id.index later) = Function.update (get arena) id (some later) := by
  rcases get_some found with ⟨generation, stored⟩
  have bound := in_range_of_entry stored
  funext other
  rw [get_eq, generation_at_replace bound, entry_at_replace bound]
  by_cases same : other = id
  · subst same
    simp [generation]
  · rw [Function.update_of_ne same]
    by_cases index : other.index = id.index
    · have nothing := get_other found same index
      rw [get_eq, index, stored] at nothing
      rw [index]
      split at nothing
      · cases nothing
      · next differs =>
          rw [if_neg differs, get_other found same index]
    · rw [Function.update_of_ne index, get_eq]

end Live

end Reading

/-! ## Agreement with the ledger -/

/-- The arena answers as the ledger does. `count` is how often each slot has been
freed; an id handed out earlier is dated by the count of its slot at that time. -/
structure Agrees (arena : Arena Value size) (book : Book SlotId Value) (count : Index → Nat) :
    Prop where
  wellFormed : WellFormed arena
  consistent : Consistent book
  resolves : get arena = book.held
  live : book.live = occupancy size (entryAt arena)
  turn : ∀ index, generationAt arena index = UInt32.ofNat (count index)
  past : ∀ id ∈ book.issued, ∃ age, id.generation = UInt32.ofNat age ∧
    (age < count id.index ∨ age = count id.index ∧ entryAt arena id.index ≠ none)

theorem agrees_new : Agrees (new : Arena Value size) Book.empty fun _ => 0 where
  wellFormed := new_well_formed
  consistent := consistent_empty
  resolves := by
    funext id
    rw [get_eq, entry_at_new]
    simp [Book.empty]
  live := by
    have nothing : occupancy size (entryAt (new : Arena Value size)) = 0 := by
      apply List.countP_eq_zero.mpr
      intro index _
      simp [entry_at_new]
    simp [nothing, Book.live, Book.empty]
  turn := by
    intro index
    by_cases bound : index < size
    · simp [generationAt, new, bound]
    · simp [generationAt, Vector.getElem?_eq_none (Nat.le_of_not_lt bound)]
  past := by
    intro id handed
    cases handed

section Steps

variable {arena : Arena Value size} {book : Book SlotId Value} {count : Index → Nat}
  (agrees : Agrees arena book count)
include agrees

/-- A slot that is about to be handed out has a generation that was never handed out
with it. -/
theorem Agrees.fresh {head : Index} (small : count head < 2 ^ 32)
    (vacant : entryAt arena head = none) :
    (⟨head, generationAt arena head⟩ : SlotId) ∉ book.issued := by
  intro handed
  rcases agrees.past _ handed with ⟨age, dated, earlier | ⟨_, used⟩⟩
  · rw [agrees.turn head] at dated
    have same := congrArg UInt32.toNat dated
    simp only [UInt32.toNat_ofNat'] at same
    simp only at earlier
    omega
  · exact used vacant

theorem Agrees.stored {head : Index} (available : arena.freeHead = some head)
    (small : count head < 2 ^ 32) (value : Value) :
    Agrees (store arena head value)
      ⟨book.issued ++ [⟨head, generationAt arena head⟩],
        Function.update book.held ⟨head, generationAt arena head⟩ (some value)⟩ count := by
  rcases agrees.wellFormed.head_vacant available with ⟨bound, vacant⟩
  have fresh := agrees.fresh small vacant
  refine ⟨agrees.wellFormed.store available value, agrees.consistent.enter fresh value, ?_, ?_,
    ?_, ?_⟩
  · rw [get_store bound, agrees.resolves]
  · rw [live_allocated fresh, agrees.live, entry_at_store bound,
      occupancy_fill bound vacant]
  · rw [generation_at_store bound]
    exact agrees.turn
  · intro id handed
    rw [entry_at_store bound]
    rcases List.mem_append.mp handed with old | new
    · rcases agrees.past id old with ⟨age, dated, earlier | ⟨now, used⟩⟩
      · exact ⟨age, dated, Or.inl earlier⟩
      · refine ⟨age, dated, Or.inr ⟨now, ?_⟩⟩
        by_cases same : id.index = head
        · simp [same]
        · rw [Function.update_of_ne same]
          exact used
    · rw [List.mem_singleton.mp new]
      exact ⟨count head, agrees.turn head, Or.inr ⟨rfl, by simp⟩⟩

theorem Agrees.released {id : SlotId} {value : Value} (found : get arena id = some value) :
    Agrees (release arena id.index) (book.put id none)
      (Function.update count id.index (count id.index + 1)) := by
  rcases get_some found with ⟨_, stored⟩
  have bound := in_range_of_entry stored
  have held : book.held id = some value := by rw [← agrees.resolves, found]
  refine ⟨agrees.wellFormed.release stored, agrees.consistent.put held none, ?_, ?_, ?_, ?_⟩
  · rw [get_release found, agrees.resolves]
    rfl
  · have before := live_freed agrees.consistent held
    have after := occupancy_clear bound stored
    rw [entry_at_release bound]
    rw [agrees.live] at before
    omega
  · intro index
    rw [generation_at_release bound]
    by_cases same : index = id.index
    · rw [same, Function.update_self, Function.update_self, agrees.turn]
      simp
    · rw [Function.update_of_ne same, Function.update_of_ne same]
      exact agrees.turn index
  · intro old handed
    rcases agrees.past old handed with ⟨age, dated, place⟩
    by_cases same : old.index = id.index
    · refine ⟨age, dated, Or.inl ?_⟩
      rw [same, Function.update_self]
      rw [same] at place
      omega
    · refine ⟨age, dated, ?_⟩
      rw [Function.update_of_ne same, entry_at_release bound, Function.update_of_ne same]
      exact place

theorem Agrees.replaced {id : SlotId} {value : Value} (found : get arena id = some value)
    (later : Value) :
    Agrees (replace arena id.index later) (book.put id (some later)) count := by
  rcases get_some found with ⟨_, stored⟩
  have bound := in_range_of_entry stored
  have held : book.held id = some value := by rw [← agrees.resolves, found]
  have inUse : ∀ index, (entryAt (replace arena id.index later) index).isSome =
      (entryAt arena index).isSome := by
    intro index
    rw [entry_at_replace bound]
    by_cases same : index = id.index
    · simp [same, stored]
    · rw [Function.update_of_ne same]
  refine ⟨agrees.wellFormed.replace stored later, agrees.consistent.put held _, ?_, ?_, ?_, ?_⟩
  · rw [get_replace found, agrees.resolves]
    rfl
  · rw [live_put _ (by simp [held]), agrees.live]
    exact (occupancy_congr fun index _ => inUse index).symm
  · rw [generation_at_replace bound]
    exact agrees.turn
  · intro old handed
    rcases agrees.past old handed with ⟨age, dated, earlier | ⟨now, used⟩⟩
    · exact ⟨age, dated, Or.inl earlier⟩
    · refine ⟨age, dated, Or.inr ⟨now, ?_⟩⟩
      rw [← Option.isSome_iff_ne_none, inUse, Option.isSome_iff_ne_none]
      exact used

/-- The call is answered, in every build alike, as the ledger answers it. -/
def Answered (arena : Arena Value size) (book : Book SlotId Value) (count : Index → Nat)
    (op : ArenaOp Value) : Prop :=
  ∃ reply after, (∀ build, ArenaStep build arena ⟨op, reply⟩ after) ∧
    Answers size book ⟨op, reply⟩ ∧
    Agrees after (book.record ⟨op, reply⟩)
      (fun index => count index + if frees index ⟨op, reply⟩ then 1 else 0) ∧
    ∀ id, op = .free id → reply = .value none → after = arena

theorem Agrees.allocate_answered (small : ∀ index, count index < 2 ^ 32) (value : Value) :
    Answered arena book count (.allocate value) := by
  have whenFull := free_list_empty agrees.wellFormed
  cases available : arena.freeHead with
  | none =>
      refine ⟨.key none, arena, fun build => ?_, .full value ?_, agrees, fun _ _ _ => rfl⟩
      · simp [ArenaStep, ObjArena.perform, allocate_full available]
      · rw [agrees.live]
        exact whenFull.mp available
  | some head =>
      rcases agrees.wellFormed.head_vacant available with ⟨bound, vacant⟩
      refine ⟨.key (some ⟨head, generationAt arena head⟩), store arena head value,
        fun build => ?_, .allocated value ?_ (agrees.fresh (small head) vacant),
        agrees.stored available (small head) value, fun _ same => by cases same⟩
      · simp [ArenaStep, ObjArena.perform, allocate_run agrees.wellFormed available]
      · have notFull : occupancy size (entryAt arena) ≠ size := by
          intro full
          rw [whenFull.mpr full] at available
          cases available
        have bounded := @occupancy_le _ size (entryAt arena)
        have live := agrees.live
        omega

theorem Agrees.free_answered (id : SlotId) : Answered arena book count (.free id) := by
  cases found : get arena id with
  | none =>
      have stale : ¬ Live arena id := by
        rw [← get_iff]
        rintro ⟨value, other⟩
        cases found.symm.trans other
      refine ⟨.value none, arena, fun build => ?_, ?_, agrees, fun _ _ _ => rfl⟩
      · simp [ArenaStep, ObjArena.perform, free_stale stale]
      · rw [← found, agrees.resolves]
        exact .freed id
  | some value =>
      rcases get_some found with ⟨same, stored⟩
      refine ⟨.value (some value), release arena id.index, fun build => ?_, ?_, ?_,
        fun _ _ missing => by cases missing⟩
      · simp [ArenaStep, ObjArena.perform, free_run stored same]
      · rw [← found, agrees.resolves]
        exact .freed id
      · have counted : (fun index => count index +
            if frees index (⟨.free id, .value (some value)⟩ : ArenaCall Value) then 1 else 0) =
            Function.update count id.index (count id.index + 1) := by
          funext index
          by_cases same : index = id.index
          · simp [frees, same]
          · simp [frees, same, Ne.symm same]
        rw [counted]
        exact agrees.released found

theorem Agrees.get_answered (id : SlotId) : Answered arena book count (.get id) := by
  refine ⟨.value (get arena id), arena, fun build => rfl, ?_, agrees, fun _ _ _ => rfl⟩
  rw [agrees.resolves]
  exact .got id

theorem Agrees.get_mut_answered (id : SlotId) (change : Value → Value) :
    Answered arena book count (.getMut id change) := by
  cases found : get arena id with
  | none =>
      refine ⟨.value none, arena, fun build => ?_, ?_, agrees, fun _ _ _ => rfl⟩
      · simp [ArenaStep, ObjArena.perform, get_mut_stale found]
      · rw [← found, agrees.resolves]
        exact .changed id change
  | some value =>
      refine ⟨.value (some value), replace arena id.index (change value), fun build => ?_, ?_,
        agrees.replaced found (change value), fun _ same => by cases same⟩
      · simp [ArenaStep, ObjArena.perform, get_mut_run found]
      · rw [← found, agrees.resolves]
        exact .changed id change

theorem Agrees.perform (small : ∀ index, count index < 2 ^ 32) (op : ArenaOp Value) :
    Answered arena book count op := by
  cases op with
  | allocate value => exact agrees.allocate_answered small value
  | free id => exact agrees.free_answered id
  | get id => exact agrees.get_answered id
  | getMut id change => exact agrees.get_mut_answered id change

end Steps

/-! ## Runs -/

section Runs

variable {build : Build} {trace : ArenaTrace Value size} {after : Arena Value size}

theorem ledger_of_snoc (trace : ArenaTrace Value size)
    (taken : Transition (Arena Value size) (ArenaCall Value)) :
    ledgerOf (trace ++ [taken]) = (ledgerOf trace).record taken.label := by
  simp [ledgerOf]

theorem freed_at_snoc (index : Index) (trace : ArenaTrace Value size)
    (taken : Transition (Arena Value size) (ArenaCall Value)) :
    freedAt index (trace ++ [taken]) =
      freedAt index trace + if frees index taken.label then 1 else 0 := by
  simp [freedAt, List.countP_append, List.countP_cons]

theorem freed_at_front (index : Index) (front back : ArenaTrace Value size) :
    freedAt index front ≤ freedAt index (front ++ back) := by
  simp [freedAt, List.countP_append]

theorem ArenaStep.unique {arena left right : Arena Value size} {op : ArenaOp Value}
    {leftReply rightReply : Reply SlotId Value}
    (first : ArenaStep build arena ⟨op, leftReply⟩ left)
    (second : ArenaStep build arena ⟨op, rightReply⟩ right) :
    leftReply = rightReply ∧ left = right := by
  have same := Eq.trans (Eq.symm first) second
  cases same
  exact ⟨rfl, rfl⟩

theorem Agrees.call {arena : Arena Value size} {book : Book SlotId Value}
    {count : Index → Nat} (agrees : Agrees arena book count)
    (small : ∀ index, count index < 2 ^ 32) {call : ArenaCall Value}
    (step : ArenaStep build arena call after) :
    Answers size book call ∧
      Agrees after (book.record call)
        (fun index => count index + if frees index call then 1 else 0) ∧
      ∀ id, call.op = .free id → call.reply = .value none → after = arena := by
  rcases agrees.perform small call.op with ⟨reply, final, ran, answers, kept, stale⟩
  rcases ArenaStep.unique step (ran build) with ⟨sameReply, sameArena⟩
  rw [← sameReply] at answers kept stale
  rw [← sameArena] at kept stale
  exact ⟨answers, kept, stale⟩

theorem agrees_of_run (run : Run (ArenaStep build) new trace after)
    (bounded : ∀ index, freedAt index trace < 2 ^ 32) :
    Agrees after (ledgerOf trace) fun index => freedAt index trace := by
  induction run with
  | nil => exact agrees_new
  | @snoc prior middle after call earlier step ih =>
      have sooner : ∀ index, freedAt index prior < 2 ^ 32 := fun index =>
        Nat.lt_of_le_of_lt (freed_at_front index prior _) (bounded index)
      have kept := ((ih sooner).call sooner step).2.1
      rw [ledger_of_snoc]
      simp only [freed_at_snoc]
      exact kept

theorem answered_in_run {front back : ArenaTrace Value size}
    {taken : Transition (Arena Value size) (ArenaCall Value)}
    (run : Run (ArenaStep build) new (front ++ taken :: back) after)
    (bounded : ∀ index, freedAt index (front ++ taken :: back) < 2 ^ 32) :
    Answers size (ledgerOf front) taken.label ∧
      Agrees taken.before (ledgerOf front) (fun index => freedAt index front) ∧
      Agrees taken.after ((ledgerOf front).record taken.label)
        (fun index => freedAt index front + if frees index taken.label then 1 else 0) ∧
      ∀ id, taken.label.op = .free id → taken.label.reply = .value none →
        taken.after = taken.before := by
  rcases run_at run with ⟨early, step⟩
  have sooner : ∀ index, freedAt index front < 2 ^ 32 := fun index =>
    Nat.lt_of_le_of_lt (freed_at_front index front _) (bounded index)
  have agrees := agrees_of_run early sooner
  rcases agrees.call sooner step with ⟨answers, kept, stale⟩
  exact ⟨answers, agrees, kept, stale⟩

theorem gone_of_run {front back : ArenaTrace Value size}
    (run : Run (ArenaStep build) new (front ++ back) after)
    (bounded : ∀ index, freedAt index (front ++ back) < 2 ^ 32) {id : SlotId}
    (handed : id ∈ (ledgerOf front).issued) (empty : (ledgerOf front).held id = none) :
    id ∈ (ledgerOf (front ++ back)).issued ∧ (ledgerOf (front ++ back)).held id = none := by
  induction back using List.reverseRecOn generalizing after with
  | nil =>
      rw [List.append_nil]
      exact ⟨handed, empty⟩
  | append_singleton earlier taken ih =>
      rw [← List.append_assoc] at run bounded ⊢
      have answers := (answered_in_run run bounded).1
      have sooner : ∀ index, freedAt index (front ++ earlier) < 2 ^ 32 := fun index =>
        Nat.lt_of_le_of_lt (freed_at_front index _ _) (bounded index)
      rcases ih (run_at run).1 sooner with ⟨known, gone⟩
      rw [ledger_of_snoc]
      exact answers.gone known gone

/-- Along every run from the empty arena in which no slot is freed 2^32 times, each
call is answered as a map of at most `size` values answers it: an allocation fails
exactly if `size` values are stored and otherwise hands out an id never handed out
before, and the other calls return what is stored under their id. A call changes
nothing under any other id, and a `free` that finds nothing changes nothing at all. Ids
resolve as in the map, a freed id to nothing ever after. The free list enumerates the
empty slots, and every call on the arena returns. -/
theorem arena_refines_map (run : Run (ArenaStep build) new trace after)
    (bounded : ∀ index, freedAt index trace < 2 ^ 32) :
    (∀ front taken back, trace = front ++ taken :: back →
      Answers size (ledgerOf front) taken.label ∧
      (∀ other, taken.label.subject ≠ some other →
        get taken.after other = get taken.before other) ∧
      ∀ id, taken.label.op = .free id → taken.label.reply = .value none →
        taken.after = taken.before) ∧
    (∀ id, get after id = (ledgerOf trace).held id) ∧
    (ledgerOf trace).issued.Nodup ∧
    (∀ front back, trace = front ++ back → ∀ id ∈ (ledgerOf front).issued,
      (ledgerOf front).held id = none → (ledgerOf trace).held id = none) ∧
    (∃ nodes, Chain (nextFreeAt after) after.freeHead nodes ∧ nodes.Nodup ∧
      ∀ index, index ∈ nodes ↔ index < size ∧ entryAt after index = none) ∧
    ∀ op, ∃ reply next, ∀ anyBuild, ArenaStep anyBuild after ⟨op, reply⟩ next := by
  have agrees := agrees_of_run run bounded
  refine ⟨?_, fun id => congrFun agrees.resolves id, agrees.consistent.distinct, ?_,
    agrees.wellFormed, ?_⟩
  · intro front taken back whole
    subst whole
    rcases answered_in_run run bounded with ⟨answers, before, later, stale⟩
    refine ⟨answers, ?_, stale⟩
    intro other elsewhere
    rw [later.resolves, before.resolves]
    exact record_elsewhere elsewhere
  · intro front back whole id handed empty
    subst whole
    exact (gone_of_run run bounded handed empty).2
  · intro op
    rcases agrees.perform bounded op with ⟨reply, next, ran, _⟩
    exact ⟨reply, next, ran⟩

end Runs

/-! ## A slot used twice -/

/-- A value is stored and freed, and another is stored in the same slot. -/
def reusedSlot : ArenaTrace Nat 1 :=
  [⟨new, ⟨.allocate 5, .key (some ⟨0, 0⟩)⟩, store new 0 5⟩,
    ⟨store new 0 5, ⟨.free ⟨0, 0⟩, .value (some 5)⟩, release (store new 0 5) 0⟩,
    ⟨release (store new 0 5) 0, ⟨.allocate 7, .key (some ⟨0, 1⟩)⟩,
      store (release (store new 0 5) 0) 0 7⟩]

theorem arena_refines_map_reused_slot :
    (ledgerOf reusedSlot).issued = [⟨0, 0⟩, ⟨0, 1⟩] ∧
      get (store (release (store (new : Arena Nat 1) 0 5) 0) 0 7) ⟨0, 0⟩ = none ∧
      get (store (release (store (new : Arena Nat 1) 0 5) 0) 0 7) ⟨0, 1⟩ = some 7 := by
  have run : Run (ArenaStep ⟨true⟩) new reusedSlot
      (store (release (store new 0 5) 0) 0 7) :=
    .snoc (.snoc (.snoc .nil (by decide)) (by decide)) (by decide)
  have bounded : ∀ index, freedAt index reusedSlot < 2 ^ 32 := by
    intro index
    have few : freedAt index reusedSlot ≤ reusedSlot.length := List.countP_le_length
    have length : reusedSlot.length = 3 := rfl
    omega
  have resolves := (arena_refines_map run bounded).2.1
  refine ⟨by decide, ?_, ?_⟩
  · rw [resolves]
    decide
  · rw [resolves]
    decide

end Tyrne.ObjArena
