import Tyrne.Lib.Accumulate
import Tyrne.Signals

/-!
# What a notification has gathered

In every run the word of a live notification is what it held when it was created, or nothing
if it was consumed since, joined with the bits of the notifies that went through its handle
after that. A notify reaches no other notification, and none that took the slot later.
-/

namespace Tyrne.Signals

open Tyrne.Lib.Effect
open Tyrne.Lib.Runs
open Tyrne.Lib.Ledger
open Tyrne.Lib.Accumulate
open Tyrne.Cap
open Tyrne.CapTable (CapabilityTable)
open Tyrne.ObjArena (WellFormed Agrees generationAt store release replace)

set_option autoImplicit false

variable {Party : Type}

abbrev NoticeTrace (Party : Type) : Type := List (NoticeTransition Party)

def Creates (handle : NotificationHandle) (taken : NoticeTransition Party) : Prop :=
  ∃ notification, taken.label.op = .create notification ∧
    taken.label.result = .ok (.created handle)

def Destroys (handle : NotificationHandle) (taken : NoticeTransition Party) : Prop :=
  taken.label.op = .destroy handle ∧ ∃ notification,
    taken.label.result = .ok (.destroyed notification)

def Consumes (handle : NotificationHandle) (word : UInt64) (taken : NoticeTransition Party) : Prop :=
  taken.label.op = .consume handle ∧ taken.label.result = .ok (.consumed (some word))

def Reports (handle : NotificationHandle) (word : UInt64) (taken : NoticeTransition Party) : Prop :=
  Consumes handle word taken ∨
    taken.label.op = .destroy handle ∧ taken.label.result = .ok (.destroyed ⟨word⟩)

/-- The word the transition leaves behind `handle` whatever was there before: the initial word
of a creation, nothing after a consume. -/
def openingOf (handle : NotificationHandle) (taken : NoticeTransition Party) : Option UInt64 :=
  match taken.label.op, taken.label.result with
  | .create notification, .ok (.created made) =>
      if made = handle then some notification.word else none
  | .consume other, .ok (.consumed (some _)) => if other = handle then some 0 else none
  | _, _ => none

/-- The bits of a successful notify through `handle`. -/
def signalOf (handle : NotificationHandle) (taken : NoticeTransition Party) : Option UInt64 :=
  match taken.label.op, taken.label.result with
  | .notify party notifCap bits, .ok .notified =>
      if notificationAt (taken.before.tables party) notifCap = some handle then some bits else none
  | _, _ => none

def signalsOf (handle : NotificationHandle) (trace : NoticeTrace Party) : List UInt64 :=
  trace.filterMap (signalOf handle)

def joined (base : UInt64) (signals : List UInt64) : UInt64 := gathered (· ||| ·) base signals

/-- The word is what the last opening left, joined with the signals since then, in whatever
order and however often each is taken. -/
def Accrued (handle : NotificationHandle) (trace : NoticeTrace Party) (word : UInt64) : Prop :=
  ∃ early opening late base, trace = early ++ opening :: late ∧
    openingOf handle opening = some base ∧ (∀ taken ∈ late, openingOf handle taken = none) ∧
    ∀ signals, (∀ bits, bits ∈ signals ↔ bits ∈ signalsOf handle late) → word = joined base signals

/-! ## Accrual along a run -/

section Accrual

variable {handle : NotificationHandle} {trace : NoticeTrace Party} {taken : NoticeTransition Party}
  {word base bits : UInt64}

theorem accrued_of_late {early late : NoticeTrace Party} {opening : NoticeTransition Party}
    (opens : openingOf handle opening = some base)
    (quiet : ∀ taken ∈ late, openingOf handle taken = none)
    (same : word = joined base (signalsOf handle late)) :
    Accrued handle (early ++ opening :: late) word := by
  refine ⟨early, opening, late, base, rfl, opens, quiet, ?_⟩
  intro signals members
  rw [same]
  exact (gathered_congr _ members base).symm

theorem accrued_opened (opens : openingOf handle taken = some base) :
    Accrued handle (trace ++ [taken]) base :=
  accrued_of_late opens (fun _ member => by cases member) rfl

theorem Accrued.later (accrued : Accrued handle trace word)
    (quiet : openingOf handle taken = none) :
    Accrued handle (trace ++ [taken]) (joined word (signalOf handle taken).toList) := by
  rcases accrued with ⟨early, opening, late, base, rfl, opens, others, same⟩
  rw [List.append_assoc, List.cons_append]
  apply accrued_of_late opens
  · intro other member
    rcases List.mem_append.mp member with before | last
    · exact others other before
    · rw [List.mem_singleton.mp last]
      exact quiet
  · have last : signalsOf handle (late ++ [taken]) =
        signalsOf handle late ++ (signalOf handle taken).toList := by
      cases signal : signalOf handle taken <;> simp [signalsOf, signal]
    rw [last, same _ fun _ => Iff.rfl]
    exact (gathered_append _ base _ _).symm

theorem Accrued.quiet (accrued : Accrued handle trace word)
    (opens : openingOf handle taken = none) (signals : signalOf handle taken = none) :
    Accrued handle (trace ++ [taken]) word := by
  have later := accrued.later opens
  rwa [signals] at later

theorem Accrued.signalled (accrued : Accrued handle trace word)
    (opens : openingOf handle taken = none) (signals : signalOf handle taken = some bits) :
    Accrued handle (trace ++ [taken]) (word ||| bits) := by
  have later := accrued.later opens
  rwa [signals] at later

end Accrual

section Steps

variable [DecidableEq Party] {build : Build} {world after start : NoticeWorld Party}
  {op : NoticeOp Party} {result : Except NoticeError NoticeReply} {trace : NoticeTrace Party}

def AllAccrued (trace : NoticeTrace Party) (world : NoticeWorld Party) : Prop :=
  ∀ handle notification, getNotification world.arena handle = some notification →
    Accrued handle trace notification.word

omit [DecidableEq Party] in
theorem AllAccrued.changed {taken : NoticeTransition Party} {changed : NotificationHandle}
    {stored : Option Notification} (accrued : AllAccrued trace world)
    (reads : getNotification after.arena =
      Function.update (getNotification world.arena) changed stored)
    (own : ∀ notification, stored = some notification →
      Accrued changed (trace ++ [taken]) notification.word)
    (others : ∀ other, other ≠ changed →
      openingOf other taken = none ∧ signalOf other taken = none) :
    AllAccrued (trace ++ [taken]) after := by
  intro handle notification found
  rw [reads] at found
  by_cases same : handle = changed
  · rw [same, Function.update_self] at found
    rw [same]
    exact own notification found
  · rw [Function.update_of_ne same] at found
    rcases others handle same with ⟨opens, signals⟩
    exact (accrued handle notification found).quiet opens signals

omit [DecidableEq Party] in
theorem AllAccrued.unchanged {taken : NoticeTransition Party} (accrued : AllAccrued trace world)
    (same : after.arena = world.arena)
    (quiet : ∀ handle, openingOf handle taken = none ∧ signalOf handle taken = none) :
    AllAccrued (trace ++ [taken]) after := by
  intro handle notification found
  rw [same] at found
  exact (accrued handle notification found).quiet (quiet handle).1 (quiet handle).2

omit [DecidableEq Party] in
theorem Noticed.accrued (wellFormed : WellFormed world.arena) (accrued : AllAccrued trace world)
    (noticed : Noticed world op result after) :
    AllAccrued (trace ++ [⟨world, ⟨op, result⟩, after⟩]) after := by
  cases noticed with
  | @created notification head available =>
      have bound := (wellFormed.head_vacant available).1
      refine accrued.changed (get_created bound notification) ?_ ?_
      · rintro _ ⟨⟩
        exact accrued_opened (by simp [openingOf])
      · intro other different
        simp [openingOf, signalOf, Ne.symm different]
  | arenaFull _ => exact accrued.unchanged rfl fun _ => ⟨rfl, rfl⟩
  | destroyed found =>
      refine accrued.changed (get_destroyed found) ?_ ?_
      · rintro _ ⟨⟩
      · intro other different
        exact ⟨rfl, rfl⟩
  | destroyStale _ => exact accrued.unchanged rfl fun _ => ⟨rfl, rfl⟩
  | notified named found =>
      refine accrued.changed (get_changed found _) ?_ ?_
      · rintro _ ⟨⟩
        exact (accrued _ _ found).signalled rfl (by simp [signalOf, named])
      · intro other different
        refine ⟨rfl, ?_⟩
        simp [signalOf, named, Ne.symm different]
  | refused _ => exact accrued.unchanged rfl fun _ => ⟨rfl, rfl⟩
  | consumed found =>
      refine accrued.changed (get_changed found _) ?_ ?_
      · rintro _ ⟨⟩
        exact accrued_opened (by simp [openingOf])
      · intro other different
        simp [openingOf, signalOf, Ne.symm different]
  | consumedNothing _ => exact accrued.unchanged rfl fun _ => ⟨rfl, rfl⟩
  | elsewhere => exact accrued.unchanged rfl fun _ => ⟨rfl, rfl⟩

theorem accrued_of_run (empty : start.arena = ObjArena.new)
    (run : Run (NoticeStep build) start trace world) :
    WellFormed world.arena ∧ AllAccrued trace world := by
  induction run with
  | nil =>
      constructor
      · rw [empty]
        exact ObjArena.new_well_formed
      · intro handle notification found
        rw [empty, getNotification, ObjArena.get_eq, ObjArena.entry_at_new] at found
        simp at found
  | snoc earlier step ih =>
      rcases ih with ⟨wellFormed, accrued⟩
      have noticed := step.noticed wellFormed
      exact ⟨noticed.well_formed wellFormed, noticed.accrued wellFormed accrued⟩

end Steps

/-! ## Nothing is lost -/

section Reports

variable [DecidableEq Party] {build : Build} {world after middle : NoticeWorld Party}
  {op : NoticeOp Party} {result : Except NoticeError NoticeReply} {trace : NoticeTrace Party}
  {handle : NotificationHandle} {word bits : UInt64}

def Carries (handle : NotificationHandle) (bits : UInt64) (world : NoticeWorld Party) : Prop :=
  ∃ notification, getNotification world.arena handle = some notification ∧
    notification.word ||| bits = notification.word

omit [DecidableEq Party] in
theorem Noticed.reported (noticed : Noticed world op result after)
    (reports : Reports handle word ⟨world, ⟨op, result⟩, after⟩) :
    getNotification world.arena handle = some ⟨word⟩ := by
  rcases reports with ⟨isConsume, isReported⟩ | ⟨isDestroy, isReported⟩
  · cases noticed with
    | consumed found =>
        cases isConsume
        cases isReported
        exact found
    | _ => cases isReported
  · cases noticed with
    | destroyed found =>
        cases isDestroy
        cases isReported
        exact found
    | _ => cases isReported

omit [DecidableEq Party] in
theorem Noticed.destroyed_handle (noticed : Noticed world op result after)
    (destroys : Destroys handle ⟨world, ⟨op, result⟩, after⟩) :
    (∃ notification, getNotification world.arena handle = some notification) ∧
      getNotification after.arena handle = none := by
  rcases destroys with ⟨isDestroy, _, isDone⟩
  cases noticed with
  | destroyed found =>
      cases isDestroy
      refine ⟨⟨_, found⟩, ?_⟩
      rw [get_destroyed found, Function.update_self]
  | _ => cases isDone

omit [DecidableEq Party] in
theorem Noticed.signalled (noticed : Noticed world op result after)
    (signals : signalOf handle ⟨world, ⟨op, result⟩, after⟩ = some bits) :
    Carries handle bits after := by
  cases noticed with
  | @notified party notifCap _ other notification named found =>
      simp only [signalOf, named, Option.some.injEq] at signals
      split at signals
      · next same =>
          cases signals
          subst same
          refine ⟨notification.set bits, ?_, ?_⟩
          · rw [get_changed found, Function.update_self]
          · exact gathered_absorbs (fun left right : UInt64 => left ||| right)
              (List.mem_singleton_self _) notification.word
      · cases signals
  | _ => cases signals

omit [DecidableEq Party] in
theorem Carries.elsewhere {changed : NotificationHandle} {stored : Option Notification}
    (carries : Carries handle bits world)
    (reads : getNotification after.arena =
      Function.update (getNotification world.arena) changed stored)
    (different : handle ≠ changed) : Carries handle bits after := by
  rcases carries with ⟨notification, live, absorbed⟩
  refine ⟨notification, ?_, absorbed⟩
  rw [reads, Function.update_of_ne different, live]

omit [DecidableEq Party] in
/-- Bits that are set stay set until the word is reported, and are then in the report. -/
theorem Noticed.carries (wellFormed : WellFormed world.arena) (carries : Carries handle bits world)
    (noticed : Noticed world op result after) :
    (∃ word, Reports handle word ⟨world, ⟨op, result⟩, after⟩ ∧ word ||| bits = word) ∨
      (Carries handle bits after ∧ ∀ word, ¬ Reports handle word ⟨world, ⟨op, result⟩, after⟩) := by
  have ⟨notification, live, absorbed⟩ := carries
  by_cases reports : ∃ word, Reports handle word ⟨world, ⟨op, result⟩, after⟩
  · rcases reports with ⟨word, reports⟩
    cases live.symm.trans (noticed.reported reports)
    exact Or.inl ⟨word, reports, absorbed⟩
  · refine Or.inr ⟨?_, not_exists.mp reports⟩
    cases noticed with
    | @created fresh head available =>
        rcases wellFormed.head_vacant available with ⟨bound, vacant⟩
        refine carries.elsewhere (get_created bound fresh) ?_
        rintro rfl
        cases vacant.symm.trans (ObjArena.get_some live).2
    | @destroyed other stored found =>
        refine carries.elsewhere (get_destroyed found) ?_
        rintro rfl
        exact reports ⟨stored.word, Or.inr ⟨rfl, rfl⟩⟩
    | @notified _ _ more other stored _ found =>
        by_cases same : handle = other
        · subst same
          cases live.symm.trans found
          rw [Carries, get_changed found]
          exact ⟨_, Function.update_self _ _ _,
            gathered_keeps (fun left right : UInt64 => left ||| right) absorbed [more]⟩
        · exact carries.elsewhere (get_changed found _) same
    | @consumed other stored found =>
        refine carries.elsewhere (get_changed found _) ?_
        rintro rfl
        exact reports ⟨stored.word, Or.inl ⟨rfl, rfl⟩⟩
    | arenaFull _ => exact carries
    | destroyStale _ => exact carries
    | refused _ => exact carries
    | consumedNothing _ => exact carries
    | elsewhere => exact carries

/-- Bits that are set are still set, or the first report since then has them. -/
def CarriedOrReported (handle : NotificationHandle) (bits : UInt64) (trace : NoticeTrace Party)
    (world : NoticeWorld Party) : Prop :=
  (Carries handle bits world ∧ ∀ taken ∈ trace, ∀ word, ¬ Reports handle word taken) ∨
    ∃ early reporting late word, trace = early ++ reporting :: late ∧
      Reports handle word reporting ∧ word ||| bits = word ∧
      ∀ taken ∈ early, ∀ word, ¬ Reports handle word taken

theorem carried_of_run (wellFormed : WellFormed middle.arena) (carries : Carries handle bits middle)
    (run : Run (NoticeStep build) middle trace world) :
    WellFormed world.arena ∧ CarriedOrReported handle bits trace world := by
  induction run with
  | nil => exact ⟨wellFormed, Or.inl ⟨carries, fun _ member => by cases member⟩⟩
  | @snoc prior before after call earlier step ih =>
      rcases ih with ⟨reached, stays⟩
      have noticed := step.noticed reached
      refine ⟨noticed.well_formed reached, ?_⟩
      rcases stays with ⟨held, silent⟩ | ⟨early, reporting, late, word, rfl, reports, kept, silent⟩
      · rcases noticed.carries reached held with ⟨word, reports, kept⟩ | ⟨still, quiet⟩
        · exact Or.inr ⟨prior, _, [], word, rfl, reports, kept, silent⟩
        · refine Or.inl ⟨still, ?_⟩
          intro taken member
          rcases List.mem_append.mp member with sooner | last
          · exact silent taken sooner
          · rw [List.mem_singleton.mp last]
            exact quiet
      · exact Or.inr ⟨early, reporting, late ++ [⟨before, call, after⟩], word, by simp, reports,
          kept, silent⟩

end Reports

/-! ## Incarnations of a slot -/

section Incarnations

variable [DecidableEq Party] {build : Build} {world after middle : NoticeWorld Party}
  {op : NoticeOp Party} {result : Except NoticeError NoticeReply} {trace : NoticeTrace Party}
  {handle : NotificationHandle} {book : Book SlotId Notification} {count : Index → Nat}

def destroysAt (index : Index) (call : NoticeCall Party) : Bool :=
  match call.op, call.result with
  | .destroy handle, .ok _ => handle.slot.index == index
  | _, _ => false

def destroyedAt (index : Index) (trace : NoticeTrace Party) : Nat :=
  trace.countP fun taken => destroysAt index taken.label

/-- What was handed out stays handed out, and what is gone stays gone. -/
structure Extends (book later : Book SlotId Notification) : Prop where
  known : ∀ id ∈ book.issued, id ∈ later.issued
  gone : ∀ id ∈ book.issued, book.held id = none → later.held id = none

theorem Extends.refl (book : Book SlotId Notification) : Extends book book :=
  ⟨fun _ known => known, fun _ _ gone => gone⟩

theorem Extends.trans {first second third : Book SlotId Notification}
    (early : Extends first second) (late : Extends second third) : Extends first third where
  known := fun id known => late.known id (early.known id known)
  gone := fun id known gone => late.gone id (early.known id known) (early.gone id known gone)

theorem extends_put {id : SlotId} {notification : Notification}
    (stored : book.held id = some notification) (later : Option Notification) :
    Extends book (book.put id later) where
  known := fun _ known => known
  gone := by
    intro other _ gone
    have different : other ≠ id := by
      rintro rfl
      cases gone.symm.trans stored
    rw [put_elsewhere later different, gone]

/-- What one call makes of the handles that were handed out. -/
structure Issues (book : Book SlotId Notification) (count : Index → Nat)
    (taken : NoticeTransition Party) (later : Book SlotId Notification) : Prop where
  agrees : Agrees taken.after.arena later
    (fun index => count index + if destroysAt index taken.label then 1 else 0)
  extended : Extends book later
  created : ∀ handle, Creates handle taken → handle.slot ∉ book.issued ∧ handle.slot ∈ later.issued

omit [DecidableEq Party] in
theorem Noticed.issues (agrees : Agrees world.arena book count)
    (small : ∀ index, count index < 2 ^ 32) (noticed : Noticed world op result after) :
    ∃ later, Issues book count ⟨world, ⟨op, result⟩, after⟩ later := by
  have held : ∀ {other : NotificationHandle} {notification : Notification},
      getNotification world.arena other = some notification →
      book.held other.slot = some notification := by
    intro other notification found
    rw [← agrees.resolves]
    exact found
  cases noticed with
  | @created notification head available =>
      have vacant := (agrees.wellFormed.head_vacant available).2
      have fresh := agrees.fresh (small head) vacant
      refine ⟨_, agrees.stored available (small head) notification, ⟨?_, ?_⟩, ?_⟩
      · intro id known
        exact List.mem_append_left _ known
      · intro id known gone
        have different : id ≠ ⟨head, generationAt world.arena head⟩ := by
          rintro rfl
          exact fresh known
        exact (Function.update_of_ne different _ _).trans gone
      · rintro handle ⟨_, _, isCreated⟩
        cases isCreated
        exact ⟨fresh, List.mem_append_right _ List.mem_cons_self⟩
  | @destroyed other notification found =>
      have counted : (fun index => count index +
          if destroysAt index (⟨.destroy other, .ok (.destroyed notification)⟩ : NoticeCall Party)
          then 1 else 0) =
          Function.update count other.slot.index (count other.slot.index + 1) := by
        funext index
        by_cases same : index = other.slot.index
        · simp [destroysAt, same]
        · simp [destroysAt, same, Ne.symm same]
      refine ⟨_, ?_, extends_put (held found) none, ?_⟩
      · rw [counted]
        exact agrees.released found
      · rintro _ ⟨_, ⟨⟩, _⟩
  | @notified _ _ bits other notification _ found =>
      exact ⟨_, agrees.replaced found _, extends_put (held found) _, by rintro _ ⟨_, ⟨⟩, _⟩⟩
  | @consumed other notification found =>
      exact ⟨_, agrees.replaced found _, extends_put (held found) _, by rintro _ ⟨_, ⟨⟩, _⟩⟩
  | arenaFull _ => exact ⟨book, agrees, .refl book, by rintro _ ⟨_, _, ⟨⟩⟩⟩
  | destroyStale _ => exact ⟨book, agrees, .refl book, by rintro _ ⟨_, _, ⟨⟩⟩⟩
  | refused _ => exact ⟨book, agrees, .refl book, by rintro _ ⟨_, _, ⟨⟩⟩⟩
  | consumedNothing _ => exact ⟨book, agrees, .refl book, by rintro _ ⟨_, _, ⟨⟩⟩⟩
  | elsewhere => exact ⟨book, agrees, .refl book, by rintro _ ⟨_, _, ⟨⟩⟩⟩

omit [DecidableEq Party] in
theorem destroyed_at_snoc (index : Index) (trace : NoticeTrace Party)
    (taken : NoticeTransition Party) :
    destroyedAt index (trace ++ [taken]) =
      destroyedAt index trace + if destroysAt index taken.label then 1 else 0 := by
  simp [destroyedAt, List.countP_append, List.countP_cons]

omit [DecidableEq Party] in
theorem destroyed_at_append (index : Index) (front back : NoticeTrace Party) :
    destroyedAt index (front ++ back) = destroyedAt index front + destroyedAt index back :=
  List.countP_append

theorem agrees_along (agrees : Agrees middle.arena book count)
    (run : Run (NoticeStep build) middle trace world)
    (bounded : ∀ index, count index + destroyedAt index trace < 2 ^ 32) :
    ∃ later, Agrees world.arena later (fun index => count index + destroyedAt index trace) ∧
      Extends book later ∧
      ∀ handle, handle.slot ∈ book.issued → ∀ taken ∈ trace, ¬ Creates handle taken := by
  induction run with
  | nil => exact ⟨book, agrees, .refl book, fun _ _ _ member => by cases member⟩
  | @snoc prior before after call earlier step ih =>
      simp only [destroyed_at_snoc] at bounded ⊢
      have sooner : ∀ index, count index + destroyedAt index prior < 2 ^ 32 := by
        intro index
        have bound := bounded index
        omega
      rcases ih sooner with ⟨reached, agreesBefore, early, neverCreated⟩
      have noticed := step.noticed agreesBefore.wellFormed
      rcases noticed.issues agreesBefore sooner with ⟨later, issues⟩
      refine ⟨later, ?_, early.trans issues.extended, ?_⟩
      · simp only [← Nat.add_assoc]
        exact issues.agrees
      · intro handle known taken member creates
        rcases List.mem_append.mp member with before | last
        · exact neverCreated handle known taken before creates
        · rw [List.mem_singleton.mp last] at creates
          exact (issues.created handle creates).1 (early.known _ known)

theorem issues_in_run {start : NoticeWorld Party} (empty : start.arena = ObjArena.new)
    {early late : NoticeTrace Party} {taken : NoticeTransition Party}
    (run : Run (NoticeStep build) start (early ++ taken :: late) world)
    (bounded : ∀ index, destroyedAt index (early ++ taken :: late) < 2 ^ 32) :
    ∃ before later final, Agrees taken.before.arena before (fun index => destroyedAt index early) ∧
      Issues before (fun index => destroyedAt index early) taken later ∧
      Agrees world.arena final (fun index => destroyedAt index (early ++ taken :: late)) ∧
      Extends later final ∧
      ∀ handle, handle.slot ∈ later.issued → ∀ other ∈ late, ¬ Creates handle other := by
  rcases run_split run with ⟨reached, first, rest⟩
  rcases run_cons rest with ⟨same, step, second⟩
  rw [← same] at first step
  have started : Agrees start.arena Book.empty fun _ => 0 := by
    rw [empty]
    exact ObjArena.agrees_new
  have counts : ∀ index, destroyedAt index (early ++ taken :: late) = destroyedAt index early +
      ((if destroysAt index taken.label then 1 else 0) + destroyedAt index late) := by
    intro index
    rw [destroyed_at_append, ← List.singleton_append, destroyed_at_append]
    simp [destroyedAt, List.countP_cons]
  simp only [counts] at bounded ⊢
  have sooner : ∀ index, 0 + destroyedAt index early < 2 ^ 32 := by
    intro index
    have bound := bounded index
    omega
  rcases agrees_along started first sooner with ⟨before, agrees, _⟩
  simp only [Nat.zero_add] at agrees sooner
  have noticed := step.noticed agrees.wellFormed
  rcases noticed.issues agrees sooner with ⟨later, issues⟩
  have onwards : ∀ index, destroyedAt index early +
      (if destroysAt index taken.label then 1 else 0) + destroyedAt index late < 2 ^ 32 := by
    intro index
    rw [Nat.add_assoc]
    exact bounded index
  rcases agrees_along issues.agrees second onwards with ⟨final, agreesFinal, extended, never⟩
  simp only [Nat.add_assoc] at agreesFinal
  exact ⟨before, later, final, agrees, issues, agreesFinal, extended, never⟩

section Distinct

variable {start : NoticeWorld Party} (empty : start.arena = ObjArena.new)
  {early late : NoticeTrace Party} {taken : NoticeTransition Party}
  (run : Run (NoticeStep build) start (early ++ taken :: late) world)
  (bounded : ∀ index, destroyedAt index (early ++ taken :: late) < 2 ^ 32)
include empty run bounded

theorem never_created_again {notification : Notification}
    (found : getNotification taken.before.arena handle = some notification) :
    ∀ other ∈ late, ¬ Creates handle other := by
  rcases issues_in_run empty run bounded with ⟨before, later, final, agrees, issues, _, _, never⟩
  have held : before.held handle.slot = some notification := by
    rw [← agrees.resolves]
    exact found
  exact never handle (issues.extended.known _ (agrees.consistent.known _ _ held))

theorem created_once (creates : Creates handle taken) :
    ∀ other ∈ late, ¬ Creates handle other := by
  rcases issues_in_run empty run bounded with ⟨before, later, final, agrees, issues, _, _, never⟩
  exact never handle (issues.created handle creates).2

theorem gone_after_destroy (destroys : Destroys handle taken) :
    getNotification world.arena handle = none := by
  rcases issues_in_run empty run bounded with
    ⟨before, later, final, agrees, issues, agreesFinal, extended, _⟩
  have noticed := (run_at run).2.noticed agrees.wellFormed
  rcases noticed.destroyed_handle destroys with ⟨⟨notification, found⟩, missing⟩
  have held : before.held handle.slot = some notification := by
    rw [← agrees.resolves]
    exact found
  have known := issues.extended.known _ (agrees.consistent.known _ _ held)
  have absent : later.held handle.slot = none := by
    rw [← issues.agrees.resolves]
    exact missing
  rw [getNotification, agreesFinal.resolves]
  exact extended.gone _ known absent

end Distinct

end Incarnations

/-! ## The law -/

section Law

variable [DecidableEq Party] {build : Build} {start world after : NoticeWorld Party}
  {trace : NoticeTrace Party}

/-- What one notify does. -/
structure NotifyLaw (world : NoticeWorld Party) (party : Party) (notifCap : CapHandle)
    (bits : UInt64) (result : Except NoticeError NoticeReply) (after : NoticeWorld Party) :
    Prop where
  succeeds : result = .ok .notified ↔ ∃ handle notification,
    notificationAt (world.tables party) notifCap = some handle ∧
      getNotification world.arena handle = some notification
  fails : result ≠ .ok .notified → result = .error (.ipc .invalidCapability) ∧ after = world
  sets : ∀ handle notification, notificationAt (world.tables party) notifCap = some handle →
    getNotification world.arena handle = some notification →
    getNotification after.arena handle = some (notification.set bits)
  others : ∀ handle, notificationAt (world.tables party) notifCap ≠ some handle →
    getNotification after.arena handle = getNotification world.arena handle
  tables : after.tables = world.tables

theorem NoticeStep.notify_law {party : Party} {notifCap : CapHandle} {bits : UInt64}
    {result : Except NoticeError NoticeReply} (wellFormed : WellFormed world.arena)
    (step : NoticeStep build world ⟨.notify party notifCap bits, result⟩ after) :
    NotifyLaw world party notifCap bits result after := by
  have noticed := step.noticed wellFormed
  generalize asked : NoticeOp.notify party notifCap bits = op at noticed
  cases noticed with
  | notified named found =>
      cases asked
      refine ⟨iff_of_true rfl ⟨_, _, named, found⟩, fun fails => absurd rfl fails, ?_, ?_, rfl⟩
      · intro handle notification sameName live
        cases named.symm.trans sameName
        cases found.symm.trans live
        rw [get_changed found, Function.update_self]
      · intro handle different
        rw [get_changed found, Function.update_of_ne]
        rintro rfl
        exact different named
  | refused unnamed =>
      cases asked
      refine ⟨iff_of_false nofun ?_, fun _ => ⟨rfl, rfl⟩, ?_, fun _ _ => rfl, rfl⟩
      · rintro ⟨handle, notification, named, live⟩
        cases (unnamed handle named).symm.trans live
      · intro handle notification named live
        cases (unnamed handle named).symm.trans live
  | _ => cases asked

/-- What holds after a run. -/
structure SignalLaw (build : Build) (trace : NoticeTrace Party) (world : NoticeWorld Party) :
    Prop where
  words : AllAccrued trace world
  reports : ∀ early taken late handle word, trace = early ++ taken :: late →
    Reports handle word taken → Accrued handle early word
  /-- No signal is lost. -/
  kept : ∀ early taken late handle bits, trace = early ++ taken :: late →
    signalOf handle taken = some bits → CarriedOrReported handle bits late world
  /-- A report after a consume has only signals that came in between. -/
  onlySince : ∀ early first mid second late handle cleared word,
    trace = early ++ first :: (mid ++ second :: late) → Consumes handle cleared first →
    Reports handle word second → ∃ recent, recent <:+ mid ∧ word = joined 0 (signalsOf handle recent)
  createdOnce : ∀ early taken late handle, trace = early ++ taken :: late → Creates handle taken →
    ∀ other ∈ late, ¬ Creates handle other
  gone : ∀ early taken late handle, trace = early ++ taken :: late → Destroys handle taken →
    getNotification world.arena handle = none
  notify : ∀ party notifCap bits result after,
    NoticeStep build world ⟨.notify party notifCap bits, result⟩ after →
      NotifyLaw world party notifCap bits result after
  returns : ∀ op, ∃ result after, ∀ anyBuild, NoticeStep anyBuild world ⟨op, result⟩ after

omit [DecidableEq Party] in
theorem creates_of_opening {handle : NotificationHandle} {taken : NoticeTransition Party}
    {base : UInt64} (opens : openingOf handle taken = some base) :
    Creates handle taken ∨ base = 0 := by
  unfold openingOf at opens
  split at opens
  · next notification made isCreate isCreated =>
      split at opens
      · next same => exact Or.inl ⟨notification, isCreate, same ▸ isCreated⟩
      · cases opens
  · split at opens
    · cases opens
      exact Or.inr rfl
    · cases opens
  · cases opens

omit [DecidableEq Party] in
theorem opening_of_consume {handle : NotificationHandle} {taken : NoticeTransition Party}
    {word : UInt64} (consumes : Consumes handle word taken) : openingOf handle taken = some 0 := by
  simp [openingOf, consumes.1, consumes.2]

omit [DecidableEq Party] in
/-- Past an opening that comes back only as a consume, the word has gathered from nothing. -/
theorem Accrued.since {handle : NotificationHandle} {early mid : NoticeTrace Party}
    {first : NoticeTransition Party} {word : UInt64}
    (accrued : Accrued handle (early ++ first :: mid) word)
    (opens : openingOf handle first = some 0) (never : ∀ other ∈ mid, ¬ Creates handle other) :
    ∃ recent, recent <:+ mid ∧ word = joined 0 (signalsOf handle recent) := by
  rcases accrued with ⟨front, opening, back, base, cut, opened, quiet, same⟩
  rw [same _ fun _ => Iff.rfl]
  rcases List.append_eq_append_iff.mp cut with ⟨between, _, tails⟩ | ⟨between, _, tails⟩
  · cases between with
    | nil =>
        cases tails
        cases opens.symm.trans opened
        exact ⟨_, List.suffix_refl _, rfl⟩
    | cons head rest =>
        cases tails
        rcases creates_of_opening opened with creates | nothing
        · exact absurd creates (never opening (by simp))
        · rw [nothing]
          exact ⟨back, ⟨rest ++ [opening], by simp⟩, rfl⟩
  · cases between with
    | nil =>
        cases tails
        cases opens.symm.trans opened
        exact ⟨_, List.suffix_refl _, rfl⟩
    | cons head rest =>
        cases tails
        cases opens.symm.trans (quiet first (by simp))

/-- Along every run from an empty arena in which no slot is freed 2^32 times, whatever is
created, destroyed, signalled and consumed in between and whoever holds which capabilities. -/
theorem notification_word_law (empty : start.arena = ObjArena.new)
    (run : Run (NoticeStep build) start trace world)
    (bounded : ∀ index, destroyedAt index trace < 2 ^ 32) : SignalLaw build trace world := by
  have wellFormed := (accrued_of_run empty run).1
  have noticed_at : ∀ early taken late, trace = early ++ taken :: late →
      WellFormed taken.before.arena ∧ AllAccrued early taken.before ∧
        Noticed taken.before taken.label.op taken.label.result taken.after ∧
        Run (NoticeStep build) taken.after late world := by
    rintro early taken late rfl
    rcases run_split run with ⟨reached, first, rest⟩
    rcases run_cons rest with ⟨same, step, second⟩
    rw [← same] at first step
    rcases accrued_of_run empty first with ⟨kept, accrued⟩
    exact ⟨kept, accrued, step.noticed kept, second⟩
  constructor
  · exact (accrued_of_run empty run).2
  · intro early taken late handle word whole reports
    rcases noticed_at early taken late whole with ⟨_, accrued, noticed, _⟩
    exact accrued handle ⟨word⟩ (noticed.reported reports)
  · intro early taken late handle bits whole signals
    rcases noticed_at early taken late whole with ⟨kept, _, noticed, rest⟩
    exact (carried_of_run (noticed.well_formed kept) (noticed.signalled signals) rest).2
  · intro early first mid second late handle cleared word whole consumes reports
    have cut : trace = (early ++ first :: mid) ++ second :: late := by simp [whole]
    rcases noticed_at _ _ _ cut with ⟨_, accrued, noticed, _⟩
    rcases noticed_at _ _ _ whole with ⟨_, _, consumed, _⟩
    have found := consumed.reported (.inl consumes)
    subst whole
    have never := never_created_again empty run bounded found
    apply (accrued handle ⟨word⟩ (noticed.reported reports)).since (opening_of_consume consumes)
    intro other member
    exact never other (List.mem_append_left _ member)
  · rintro early taken late handle rfl creates
    exact created_once empty run bounded creates
  · rintro early taken late handle rfl destroys
    exact gone_after_destroy empty run bounded destroys
  · intro party notifCap bits result after step
    exact step.notify_law wellFormed
  · intro op
    rcases perform_returns wellFormed op with ⟨result, after, _, returned⟩
    exact ⟨result, after, returned⟩

end Law

/-! ## Two holders of one notification -/

def holderTable (rights : CapRights) : CapabilityTable :=
  CapTable.stateAfter ⟨true⟩ (.insertRoot ⟨rights, .notification ⟨⟨0, 0⟩⟩⟩) CapTable.new

def holders : NoticeWorld Bool where
  arena := ObjArena.new
  tables := fun allowed => holderTable (if allowed then .notify else .send)

def noticeNext (world : NoticeWorld Bool) (call : NoticeCall Bool) : Option (NoticeWorld Bool) :=
  if (perform ⟨true⟩ call.op world).report? = some call.result then
    (perform ⟨true⟩ call.op world).state?
  else none

theorem notice_next_step {world after : NoticeWorld Bool} {call : NoticeCall Bool}
    (next : noticeNext world call = some after) : NoticeStep ⟨true⟩ world call after := by
  unfold noticeNext at next
  split at next
  · next reports =>
      have returned := returned_of_report world reports
      rw [next] at returned
      exact returned
  · cases next

def signalCalls : List (NoticeCall Bool) :=
  [⟨.create ⟨1⟩, .ok (.created ⟨⟨0, 0⟩⟩)⟩,
    ⟨.notify true ⟨0, 0⟩ 6, .ok .notified⟩,
    ⟨.notify false ⟨0, 0⟩ 8, .error (.ipc .invalidCapability)⟩,
    ⟨.consume ⟨⟨0, 0⟩⟩, .ok (.consumed (some 7))⟩,
    ⟨.notify true ⟨0, 0⟩ 2, .ok .notified⟩,
    ⟨.notify true ⟨0, 0⟩ 2, .ok .notified⟩]

theorem notification_word_law_holders :
    ∃ trace world, labels trace = signalCalls ∧ SignalLaw ⟨true⟩ trace world ∧
      getNotification world.arena ⟨⟨0, 0⟩⟩ = some ⟨2⟩ := by
  have played : ((follow noticeNext holders signalCalls).bind fun world =>
      getNotification world.arena ⟨⟨0, 0⟩⟩) = some ⟨2⟩ := by decide +kernel
  rcases Option.bind_eq_some_iff.mp played with ⟨world, followed, word⟩
  rcases run_of_follow followed with ⟨trace, run, same⟩
  have bounded : ∀ index, destroyedAt index trace < 2 ^ 32 := by
    intro index
    have few : destroyedAt index trace ≤ trace.length := List.countP_le_length
    have length := congrArg List.length same
    simp only [labels, List.length_map, signalCalls, List.length_cons, List.length_nil] at length
    omega
  exact ⟨trace, world, same,
    notification_word_law rfl (run_weaken (fun _ _ _ next => notice_next_step next) run) bounded,
    word⟩

end Tyrne.Signals
