import Mathlib.Data.List.Nodup
import Mathlib.Logic.Function.Basic

/-!
# Ledgers

A bounded map that hands out its own keys. A key is handed out once; what is stored
under it stays there until it is freed, and then nothing is ever stored under it again.
-/

namespace Tyrne.Lib.Ledger

set_option autoImplicit false

variable {Key Value : Type}

/-- The keys handed out so far, in order, and what is stored under each key. -/
structure Book (Key Value : Type) where
  issued : List Key
  held : Key → Option Value

inductive Op (Key Value : Type) where
  | allocate (value : Value)
  | free (key : Key)
  | get (key : Key)
  | getMut (key : Key) (change : Value → Value)

inductive Reply (Key Value : Type) where
  | key (key : Option Key)
  | value (value : Option Value)
  deriving DecidableEq, Repr

structure Call (Key Value : Type) where
  op : Op Key Value
  reply : Reply Key Value

/-- The key a call is about: the one it names, or the one it hands out. -/
def Call.subject (call : Call Key Value) : Option Key :=
  match call.op, call.reply with
  | .allocate _, .key key => key
  | .allocate _, .value _ => none
  | .free key, _ => some key
  | .get key, _ => some key
  | .getMut key _, _ => some key

namespace Book

def empty : Book Key Value := ⟨[], fun _ => none⟩

def live (book : Book Key Value) : Nat :=
  book.issued.countP fun key => (book.held key).isSome

variable [DecidableEq Key]

def put (book : Book Key Value) (key : Key) (value : Option Value) : Book Key Value :=
  { book with held := Function.update book.held key value }

def record (book : Book Key Value) (call : Call Key Value) : Book Key Value :=
  match call.op, call.reply with
  | .allocate value, .key (some key) =>
      ⟨book.issued ++ [key], Function.update book.held key (some value)⟩
  | .free key, .value (some _) => book.put key none
  | .getMut key change, .value (some value) => book.put key (some (change value))
  | _, _ => book

end Book

/-- What a map of at most `bound` values answers. -/
inductive Answers (bound : Nat) (book : Book Key Value) : Call Key Value → Prop where
  | full (value : Value) (all : book.live = bound) :
      Answers bound book ⟨.allocate value, .key none⟩
  | allocated {key : Key} (value : Value) (room : book.live < bound)
      (fresh : key ∉ book.issued) : Answers bound book ⟨.allocate value, .key (some key)⟩
  | freed (key : Key) : Answers bound book ⟨.free key, .value (book.held key)⟩
  | got (key : Key) : Answers bound book ⟨.get key, .value (book.held key)⟩
  | changed (key : Key) (change : Value → Value) :
      Answers bound book ⟨.getMut key change, .value (book.held key)⟩

/-- No key is handed out twice, and nothing is stored under another key. -/
structure Consistent (book : Book Key Value) : Prop where
  distinct : book.issued.Nodup
  known : ∀ key value, book.held key = some value → key ∈ book.issued

theorem consistent_empty : Consistent (Book.empty : Book Key Value) :=
  ⟨List.nodup_nil, fun _ _ stored => by cases stored⟩

section Steps

variable [DecidableEq Key] {bound : Nat} {book : Book Key Value} {key other : Key}
  {value : Value}

theorem put_elsewhere (stored : Option Value) (different : other ≠ key) :
    (book.put key stored).held other = book.held other :=
  Function.update_of_ne different _ _

theorem record_elsewhere {call : Call Key Value} (elsewhere : call.subject ≠ some other) :
    (book.record call).held other = book.held other := by
  rcases call with ⟨op, reply⟩
  cases op with
  | allocate value =>
      rcases reply with (_ | key) | found
      · rfl
      · exact Function.update_of_ne (fun same => elsewhere (congrArg some same.symm)) _ _
      · rfl
  | free key =>
      have different : other ≠ key := fun same => elsewhere (congrArg some same.symm)
      rcases reply with handed | (_ | value)
      · rfl
      · rfl
      · exact put_elsewhere none different
  | get key => rfl
  | getMut key change =>
      have different : other ≠ key := fun same => elsewhere (congrArg some same.symm)
      rcases reply with handed | (_ | value)
      · rfl
      · rfl
      · exact put_elsewhere _ different

theorem issued_record (call : Call Key Value) (known : key ∈ book.issued) :
    key ∈ (book.record call).issued := by
  unfold Book.record
  split
  · exact List.mem_append_left _ known
  · exact known
  · exact known
  · exact known

theorem Consistent.put (consistent : Consistent book) (stored : book.held key = some value)
    (later : Option Value) : Consistent (book.put key later) where
  distinct := consistent.distinct
  known := by
    intro some_key found holds
    by_cases same : some_key = key
    · rw [same]
      exact consistent.known key value stored
    · rw [put_elsewhere later same] at holds
      exact consistent.known some_key found holds

theorem Answers.record_cases {call : Call Key Value} (answers : Answers bound book call) :
    book.record call = book ∨
      (∃ key value, key ∉ book.issued ∧ book.record call =
        ⟨book.issued ++ [key], Function.update book.held key (some value)⟩) ∨
      ∃ key value later, book.held key = some value ∧ book.record call = book.put key later := by
  cases answers with
  | full value all => exact Or.inl rfl
  | @allocated key value room fresh => exact Or.inr (Or.inl ⟨key, value, fresh, rfl⟩)
  | freed key =>
      cases stored : book.held key with
      | none => exact Or.inl rfl
      | some value => exact Or.inr (Or.inr ⟨key, value, _, stored, rfl⟩)
  | got key => exact Or.inl rfl
  | changed key change =>
      cases stored : book.held key with
      | none => exact Or.inl rfl
      | some value => exact Or.inr (Or.inr ⟨key, value, _, stored, rfl⟩)

theorem Consistent.enter (consistent : Consistent book) (fresh : key ∉ book.issued)
    (value : Value) :
    Consistent ⟨book.issued ++ [key], Function.update book.held key (some value)⟩ where
  distinct := by
    rw [List.nodup_append]
    refine ⟨consistent.distinct, by simp, ?_⟩
    intro old isOld new isNew same
    rw [List.mem_singleton.mp isNew] at same
    exact fresh (same ▸ isOld)
  known := by
    intro some_key found holds
    by_cases same : some_key = key
    · simp [same]
    · simp only [Function.update_of_ne same] at holds
      exact List.mem_append_left _ (consistent.known some_key found holds)

theorem Consistent.record {call : Call Key Value} (consistent : Consistent book)
    (answers : Answers bound book call) : Consistent (book.record call) := by
  rcases answers.record_cases with same | ⟨new, value, fresh, entered⟩ |
    ⟨target, value, later, stored, changed⟩
  · rw [same]
    exact consistent
  · rw [entered]
    exact consistent.enter fresh value
  · rw [changed]
    exact consistent.put stored later

theorem Answers.gone {call : Call Key Value} (answers : Answers bound book call)
    (known : key ∈ book.issued) (freed : book.held key = none) :
    key ∈ (book.record call).issued ∧ (book.record call).held key = none := by
  rcases answers.record_cases with same | ⟨new, value, fresh, entered⟩ |
    ⟨target, value, later, stored, changed⟩
  · rw [same]
    exact ⟨known, freed⟩
  · have different : key ≠ new := fun same => fresh (same ▸ known)
    rw [entered]
    exact ⟨List.mem_append_left _ known, (Function.update_of_ne different _ _).trans freed⟩
  · have different : key ≠ target := by
      intro same
      rw [same, stored] at freed
      cases freed
    rw [changed]
    exact ⟨known, (put_elsewhere later different).trans freed⟩

/-! ## Counting -/

theorem live_allocated (fresh : key ∉ book.issued) (value : Value) :
    Book.live ⟨book.issued ++ [key], Function.update book.held key (some value)⟩ =
      book.live + 1 := by
  have others : book.issued.countP (fun other =>
      (Function.update book.held key (some value) other).isSome) = book.live := by
    apply List.countP_congr
    intro other member
    have different : other ≠ key := fun same => fresh (same ▸ member)
    rw [Function.update_of_ne different]
  simp [Book.live, List.countP_append, others]

theorem live_put (later : Option Value)
    (same : later.isSome = (book.held key).isSome) :
    (book.put key later).live = book.live := by
  apply List.countP_congr
  intro other _
  by_cases isKey : other = key
  · subst isKey
    simp [Book.put, same]
  · rw [put_elsewhere later isKey]

theorem live_freed (consistent : Consistent book) (stored : book.held key = some value) :
    (book.put key none).live + 1 = book.live := by
  have member := consistent.known key value stored
  rcases List.append_of_mem member with ⟨front, back, listed⟩
  have distinct := consistent.distinct
  rw [listed] at distinct
  have apart := (List.nodup_cons.mp (List.nodup_middle.mp distinct)).1
  have others : ∀ part : List Key, (∀ other ∈ part, other ∈ front ++ back) →
      part.countP (fun other => ((book.put key none).held other).isSome) =
        part.countP fun other => (book.held other).isSome := by
    intro part inside
    apply List.countP_congr
    intro other isIn
    have different : other ≠ key := fun same => apart (same ▸ inside other isIn)
    rw [put_elsewhere none different]
  have before := others front fun other isIn => List.mem_append_left _ isIn
  have behind := others back fun other isIn => List.mem_append_right _ isIn
  have cleared : ((book.put key none).held key).isSome = false := by simp [Book.put]
  have issued : (book.put key none).issued = front ++ key :: back := listed
  unfold Book.live
  rw [issued, listed, List.countP_append, List.countP_append, List.countP_cons,
    List.countP_cons, before, behind, cleared]
  simp [stored]
  omega

end Steps

end Tyrne.Lib.Ledger
