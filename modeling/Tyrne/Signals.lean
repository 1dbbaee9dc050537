import Tyrne.ArenaHistory
import Tyrne.Delivery

/-!
# Notifications

`kernel/src/obj/notification.rs` and `ipc_notify` of `kernel/src/ipc/mod.rs`: words of signal
bits in an arena of their own, set through capabilities that any number of parties hold. A
step is one call by one party, or something else that changes capability tables.
-/

namespace Tyrne.Signals

open Tyrne.Lib.Effect
open Tyrne.Lib.Runs
open Tyrne.Cap
open Tyrne.CapTable (CapabilityTable lookup)
open Tyrne.ObjArena (Arena ObjError WellFormed allocate free get getMut store release replace
  generationAt)
open Tyrne.Ipc (IpcError CallerM)
open Tyrne.System (capabilityAt)

set_option autoImplicit false

def notificationArenaCapacity : Nat := 16

structure Notification where
  word : UInt64
  deriving DecidableEq, Repr

namespace Notification

def new (word : UInt64) : Notification := ⟨word⟩

def set (notif : Notification) (bits : UInt64) : Notification := ⟨notif.word ||| bits⟩

def consume (notif : Notification) : UInt64 × Notification := (notif.word, ⟨0⟩)

end Notification

abbrev NotificationArena : Type := Arena Notification notificationArenaCapacity

abbrev ArenaM : Type → Type := Eff Fault NotificationArena ObjError

def createNotification (build : Build) (notification : Notification) :
    ArenaM NotificationHandle := do
  match ← allocate build notification with
  | some slot => pure ⟨slot⟩
  | none => fail .arenaFull

def destroyNotification (handle : NotificationHandle) : ArenaM Notification := do
  match ← free handle.slot with
  | some notification => pure notification
  | none => fail .invalidHandle

def getNotification (arena : NotificationArena) (handle : NotificationHandle) :
    Option Notification := get arena handle.slot

/-- `consume` on the stored notification, reached through `get_mut`. -/
def consumeStored (handle : NotificationHandle) : ArenaM (Option UInt64) := do
  let found ← getMut handle.slot fun notif => notif.consume.2
  pure (found.map fun notif => notif.consume.1)

/-! ## Signalling -/

/-- What `ipc_notify` runs on. The table is only read. -/
structure NotifyState where
  arena : NotificationArena
  table : CapabilityTable
  deriving DecidableEq, Repr

def validateNotifCap (notifCap : CapHandle) : CallerM NotificationHandle := do
  let cap ← mapErr (fun _ => IpcError.invalidCapability) (lookup notifCap)
  if !cap.rights.contains .notify then fail .invalidCapability
  else
    match cap.object with
    | .notification handle => pure handle
    | _ => fail .invalidCapability

def ipcNotify (notifCap : CapHandle) (bits : UInt64) : Eff Fault NotifyState IpcError Unit := do
  let notifHandle ← zoom NotifyState.table (fun state table => { state with table := table })
    (validateNotifCap notifCap)
  let found ← mapErr (fun _ => IpcError.invalidCapability)
    (zoom NotifyState.arena (fun state arena => { state with arena := arena })
      (getMut notifHandle.slot fun notif => notif.set bits))
  match found with
  | some _ => pure ()
  | none => fail .invalidCapability

/-! ## Parties -/

variable {Party : Type}

structure NoticeWorld (Party : Type) where
  arena : NotificationArena
  tables : Party → CapabilityTable

/-- `elsewhere` is whatever else happens to the tables. -/
inductive NoticeOp (Party : Type) where
  | create (notification : Notification)
  | destroy (handle : NotificationHandle)
  | notify (party : Party) (notifCap : CapHandle) (bits : UInt64)
  | consume (handle : NotificationHandle)
  | elsewhere (tables : Party → CapabilityTable)

inductive NoticeReply where
  | created (handle : NotificationHandle)
  | destroyed (notification : Notification)
  | notified
  | consumed (word : Option UInt64)
  | done
  deriving DecidableEq, Repr

inductive NoticeError where
  | obj (error : ObjError)
  | ipc (error : IpcError)
  deriving DecidableEq, Repr

structure NoticeCall (Party : Type) where
  op : NoticeOp Party
  result : Except NoticeError NoticeReply

abbrev NoticeTransition (Party : Type) : Type := Transition (NoticeWorld Party) (NoticeCall Party)

abbrev NoticeM (Party : Type) : Type → Type := Eff Fault (NoticeWorld Party) NoticeError

def onArena {Value : Type} (computation : ArenaM Value) : NoticeM Party Value :=
  mapErr .obj (zoom NoticeWorld.arena (fun world arena => { world with arena := arena }) computation)

variable [DecidableEq Party]

def asParty {Value : Type} (party : Party) (computation : Eff Fault NotifyState IpcError Value) :
    NoticeM Party Value :=
  mapErr .ipc (zoom (fun world => ⟨world.arena, world.tables party⟩)
    (fun world state => ⟨state.arena, Function.update world.tables party state.table⟩) computation)

def perform (build : Build) : NoticeOp Party → NoticeM Party NoticeReply
  | .create notification => do
      let handle ← onArena (createNotification build notification)
      pure (.created handle)
  | .destroy handle => do
      let notification ← onArena (destroyNotification handle)
      pure (.destroyed notification)
  | .notify party notifCap bits => do
      asParty party (ipcNotify notifCap bits)
      pure .notified
  | .consume handle => do
      let word ← onArena (consumeStored handle)
      pure (.consumed word)
  | .elsewhere tables => do
      let world ← read
      write { world with tables := tables }
      pure .done

def NoticeStep (build : Build) (world : NoticeWorld Party) (call : NoticeCall Party)
    (after : NoticeWorld Party) : Prop :=
  (perform build call.op world).Returned call.result after

/-- The notification a capability names, if it may be signalled through it. -/
def notificationAt (table : CapabilityTable) (notifCap : CapHandle) : Option NotificationHandle :=
  match capabilityAt table notifCap with
  | some ⟨rights, .notification handle⟩ => if rights.contains .notify then some handle else none
  | _ => none

omit [DecidableEq Party] in
theorem validate_notif_cap_cases (table : CapabilityTable) (notifCap : CapHandle) :
    (∃ handle, notificationAt table notifCap = some handle ∧
      validateNotifCap notifCap table = .ok handle table) ∨
    (notificationAt table notifCap = none ∧
      validateNotifCap notifCap table = .err .invalidCapability table) := by
  rcases Ipc.lookup_cases table notifCap with ⟨⟨rights, object⟩, found⟩ | missing
  · by_cases allowed : rights.contains .notify = true
    · cases object with
      | notification handle =>
          exact Or.inl ⟨handle, by simp [notificationAt, capabilityAt, found, allowed],
            by simp [validateNotifCap, found, allowed]⟩
      | task handle =>
          exact Or.inr ⟨by simp [notificationAt, capabilityAt, found],
            by simp [validateNotifCap, found, allowed]⟩
      | endpoint handle =>
          exact Or.inr ⟨by simp [notificationAt, capabilityAt, found],
            by simp [validateNotifCap, found, allowed]⟩
    · refine Or.inr ⟨?_, by simp [validateNotifCap, found, allowed]⟩
      cases object with
      | notification handle => simp [notificationAt, capabilityAt, found, allowed]
      | task handle => simp [notificationAt, capabilityAt, found]
      | endpoint handle => simp [notificationAt, capabilityAt, found]
  · exact Or.inr ⟨by simp [notificationAt, capabilityAt, missing],
      by simp [validateNotifCap, missing]⟩

/-- Everything a call can do. -/
inductive Noticed (world : NoticeWorld Party) :
    NoticeOp Party → Except NoticeError NoticeReply → NoticeWorld Party → Prop where
  | created {notification : Notification} {head : Index}
      (available : world.arena.freeHead = some head) :
      Noticed world (.create notification)
        (.ok (.created ⟨⟨head, generationAt world.arena head⟩⟩))
        { world with arena := store world.arena head notification }
  | arenaFull {notification : Notification} (full : world.arena.freeHead = none) :
      Noticed world (.create notification) (.error (.obj .arenaFull)) world
  | destroyed {handle : NotificationHandle} {notification : Notification}
      (found : getNotification world.arena handle = some notification) :
      Noticed world (.destroy handle) (.ok (.destroyed notification))
        { world with arena := release world.arena handle.slot.index }
  | destroyStale {handle : NotificationHandle}
      (missing : getNotification world.arena handle = none) :
      Noticed world (.destroy handle) (.error (.obj .invalidHandle)) world
  | notified {party : Party} {notifCap : CapHandle} {bits : UInt64} {handle : NotificationHandle}
      {notification : Notification} (named : notificationAt (world.tables party) notifCap = some handle)
      (found : getNotification world.arena handle = some notification) :
      Noticed world (.notify party notifCap bits) (.ok .notified)
        { world with arena := replace world.arena handle.slot.index (notification.set bits) }
  | refused {party : Party} {notifCap : CapHandle} {bits : UInt64}
      (unnamed : ∀ handle, notificationAt (world.tables party) notifCap = some handle →
        getNotification world.arena handle = none) :
      Noticed world (.notify party notifCap bits) (.error (.ipc .invalidCapability)) world
  | consumed {handle : NotificationHandle} {notification : Notification}
      (found : getNotification world.arena handle = some notification) :
      Noticed world (.consume handle) (.ok (.consumed (some notification.word)))
        { world with arena := replace world.arena handle.slot.index ⟨0⟩ }
  | consumedNothing {handle : NotificationHandle}
      (missing : getNotification world.arena handle = none) :
      Noticed world (.consume handle) (.ok (.consumed none)) world
  | elsewhere {tables : Party → CapabilityTable} :
      Noticed world (.elsewhere tables) (.ok .done) { world with tables := tables }

section Calls

variable {world : NoticeWorld Party}

theorem create_returns (wellFormed : WellFormed world.arena) (notification : Notification) :
    ∃ result after, Noticed world (.create notification) result after ∧
      ∀ build, NoticeStep build world ⟨.create notification, result⟩ after := by
  cases available : world.arena.freeHead with
  | none =>
      refine ⟨_, _, .arenaFull available, fun build => ?_⟩
      simp [NoticeStep, perform, onArena, createNotification, zoom,
        ObjArena.allocate_full available, Outcome.Returned]
  | some head =>
      refine ⟨_, _, .created available, fun build => ?_⟩
      simp [NoticeStep, perform, onArena, createNotification, zoom,
        ObjArena.allocate_run wellFormed available, Outcome.Returned]

theorem destroy_returns (handle : NotificationHandle) :
    ∃ result after, Noticed world (.destroy handle) result after ∧
      ∀ build, NoticeStep build world ⟨.destroy handle, result⟩ after := by
  cases found : getNotification world.arena handle with
  | none =>
      refine ⟨_, _, .destroyStale found, fun build => ?_⟩
      have stale : ¬ ObjArena.Live world.arena handle.slot := by
        rw [← ObjArena.get_iff]
        rintro ⟨notification, other⟩
        cases found.symm.trans other
      simp [NoticeStep, perform, onArena, destroyNotification, zoom, ObjArena.free_stale stale,
        Outcome.Returned]
  | some notification =>
      refine ⟨_, _, .destroyed found, fun build => ?_⟩
      rcases ObjArena.get_some found with ⟨dated, stored⟩
      simp [NoticeStep, perform, onArena, destroyNotification, zoom,
        ObjArena.free_run stored dated, Outcome.Returned]

theorem notify_returns (party : Party) (notifCap : CapHandle) (bits : UInt64) :
    ∃ result after, Noticed world (.notify party notifCap bits) result after ∧
      ∀ build, NoticeStep build world ⟨.notify party notifCap bits, result⟩ after := by
  rcases validate_notif_cap_cases (world.tables party) notifCap with
    ⟨handle, named, validated⟩ | ⟨unnamed, refused⟩
  · cases found : getNotification world.arena handle with
    | none =>
        refine ⟨_, _, .refused ?_, fun build => ?_⟩
        · intro other same
          cases named.symm.trans same
          exact found
        · simp [NoticeStep, perform, asParty, ipcNotify, zoom, validated,
            ObjArena.get_mut_stale found, Outcome.Returned]
    | some notification =>
        refine ⟨_, _, .notified named found, fun build => ?_⟩
        simp [NoticeStep, perform, asParty, ipcNotify, zoom, validated,
          ObjArena.get_mut_run found, Outcome.Returned]
  · refine ⟨_, _, .refused ?_, fun build => ?_⟩
    · intro other same
      cases unnamed.symm.trans same
    · simp [NoticeStep, perform, asParty, ipcNotify, zoom, refused, Outcome.Returned]

theorem consume_returns (handle : NotificationHandle) :
    ∃ result after, Noticed world (.consume handle) result after ∧
      ∀ build, NoticeStep build world ⟨.consume handle, result⟩ after := by
  cases found : getNotification world.arena handle with
  | none =>
      refine ⟨_, _, .consumedNothing found, fun build => ?_⟩
      simp [NoticeStep, perform, onArena, consumeStored, zoom, ObjArena.get_mut_stale found,
        Outcome.Returned]
  | some notification =>
      refine ⟨_, _, .consumed found, fun build => ?_⟩
      simp [NoticeStep, perform, onArena, consumeStored, zoom, ObjArena.get_mut_run found,
        Notification.consume, Outcome.Returned]

theorem perform_returns (wellFormed : WellFormed world.arena) (op : NoticeOp Party) :
    ∃ result after, Noticed world op result after ∧
      ∀ build, NoticeStep build world ⟨op, result⟩ after := by
  cases op with
  | create notification => exact create_returns wellFormed notification
  | destroy handle => exact destroy_returns handle
  | notify party notifCap bits => exact notify_returns party notifCap bits
  | consume handle => exact consume_returns handle
  | elsewhere tables => exact ⟨_, _, .elsewhere, fun build => rfl⟩

theorem NoticeStep.noticed {build : Build} {call : NoticeCall Party} {after : NoticeWorld Party}
    (wellFormed : WellFormed world.arena) (step : NoticeStep build world call after) :
    Noticed world call.op call.result after := by
  rcases perform_returns wellFormed call.op with ⟨result, reached, noticed, returned⟩
  rcases (returned build).unique step with ⟨same, reachedSame⟩
  rw [← same, ← reachedSame]
  exact noticed

omit [DecidableEq Party] in
theorem Noticed.well_formed {op : NoticeOp Party} {result : Except NoticeError NoticeReply}
    {after : NoticeWorld Party} (wellFormed : WellFormed world.arena)
    (noticed : Noticed world op result after) : WellFormed after.arena := by
  cases noticed with
  | created available => exact wellFormed.store available _
  | arenaFull _ => exact wellFormed
  | destroyed found => exact wellFormed.release (ObjArena.get_some found).2
  | destroyStale _ => exact wellFormed
  | notified _ found => exact wellFormed.replace (ObjArena.get_some found).2 _
  | refused _ => exact wellFormed
  | consumed found => exact wellFormed.replace (ObjArena.get_some found).2 _
  | consumedNothing _ => exact wellFormed
  | elsewhere => exact wellFormed

end Calls

/-! ## What handles read -/

section Reading

variable {arena : NotificationArena} {handle : NotificationHandle} {notification : Notification}

theorem get_notification_eq (arena : NotificationArena) :
    getNotification arena = get arena ∘ NotificationHandle.slot := rfl

theorem read_updated (read : SlotId → Option Notification) (handle : NotificationHandle)
    (stored : Option Notification) :
    Function.update read handle.slot stored ∘ NotificationHandle.slot =
      Function.update (read ∘ NotificationHandle.slot) handle stored := by
  apply Function.update_comp_eq_of_injective
  rintro ⟨left⟩ ⟨right⟩ same
  exact congrArg NotificationHandle.mk same

theorem get_created {head : Index} (bound : head < notificationArenaCapacity)
    (notification : Notification) :
    getNotification (store arena head notification) =
      Function.update (getNotification arena) ⟨⟨head, generationAt arena head⟩⟩
        (some notification) := by
  rw [get_notification_eq, ObjArena.get_store bound]
  exact read_updated _ ⟨⟨head, generationAt arena head⟩⟩ _

section Found

variable (found : getNotification arena handle = some notification)
include found

theorem get_destroyed :
    getNotification (release arena handle.slot.index) =
      Function.update (getNotification arena) handle none := by
  rw [get_notification_eq, ObjArena.get_release found]
  exact read_updated _ handle _

theorem get_changed (later : Notification) :
    getNotification (replace arena handle.slot.index later) =
      Function.update (getNotification arena) handle (some later) := by
  rw [get_notification_eq, ObjArena.get_replace found]
  exact read_updated _ handle _

end Found

end Reading

end Tyrne.Signals
