import Mathlib.Algebra.Group.Nat.Defs
import Mathlib.Logic.Function.Basic

/-!
# Byte-addressed memory

A memory gives a byte to every address. Numbers are stored with the least significant
byte first; consecutive words of 64 bits make a block.
-/

namespace Tyrne.Lib.ByteMemory

set_option autoImplicit false

abbrev Memory : Type := Nat → UInt8

def readBytes (memory : Memory) (address : Nat) : Nat → Nat
  | 0 => 0
  | count + 1 => (memory address).toNat + 256 * readBytes memory (address + 1) count

def writeBytes (memory : Memory) (address : Nat) : Nat → Nat → Memory
  | 0, _ => memory
  | count + 1, value =>
      writeBytes (Function.update memory address (UInt8.ofNat (value % 256))) (address + 1) count
        (value / 256)

def load (memory : Memory) (address : Nat) : UInt64 := UInt64.ofNat (readBytes memory address 8)

def store (memory : Memory) (address : Nat) (word : UInt64) : Memory :=
  writeBytes memory address 8 word.toNat

def storeAll (memory : Memory) (address : Nat) : List UInt64 → Memory
  | [] => memory
  | word :: rest => storeAll (store memory address word) (address + 8) rest

section Bytes

variable {memory other : Memory} {address : Nat}

theorem write_bytes_outside {count : Nat} (value : Nat) {place : Nat}
    (outside : place < address ∨ address + count ≤ place) :
    writeBytes memory address count value place = memory place := by
  induction count generalizing memory address value with
  | zero => rfl
  | succ count ih =>
      have different : place ≠ address := by omega
      rw [writeBytes, ih (value / 256) (by omega), Function.update_of_ne different]

theorem read_bytes_congr {count : Nat}
    (same : ∀ place, address ≤ place → place < address + count → other place = memory place) :
    readBytes other address count = readBytes memory address count := by
  induction count generalizing address with
  | zero => rfl
  | succ count ih =>
      have rest := @ih (address + 1) fun place lower upper => same place (by omega) (by omega)
      rw [readBytes, readBytes, rest, same address (by omega) (by omega)]

theorem read_written (memory : Memory) (address count value : Nat) :
    readBytes (writeBytes memory address count value) address count = value % 256 ^ count := by
  induction count generalizing memory address value with
  | zero => simp [readBytes, Nat.mod_one]
  | succ count ih =>
      have first : writeBytes memory address (count + 1) value address =
          UInt8.ofNat (value % 256) := by
        rw [writeBytes, write_bytes_outside _ (by omega), Function.update_self]
      have small : (UInt8.ofNat (value % 256)).toNat = value % 256 := by simp
      rw [readBytes, first, small, writeBytes, ih, Nat.pow_succ, Nat.mul_comm (256 ^ count)]
      exact (Nat.mod_mul).symm

def cleared (memory : Memory) (first last : Nat) : Memory :=
  fun place => if first ≤ place ∧ place < last then 0 else memory place

theorem cleared_outside {first last place : Nat} (outside : place < first ∨ last ≤ place) :
    cleared memory first last place = memory place := by
  apply if_neg
  omega

theorem cleared_none (memory : Memory) (first : Nat) : cleared memory first first = memory := by
  funext place
  exact cleared_outside (Nat.lt_or_ge place first)

theorem write_zero_bytes {first : Nat} (above : first ≤ address) (count : Nat) :
    writeBytes (cleared memory first address) address count 0 =
      cleared memory first (address + count) := by
  induction count generalizing address with
  | zero => rfl
  | succ count ih =>
      have extended : Function.update (cleared memory first address) address 0 =
          cleared memory first (address + 1) := by
        funext place
        by_cases here : place = address
        · subst here
          simp [cleared, above]
        · rw [Function.update_of_ne here]
          have same : (first ≤ place ∧ place < address) ↔ (first ≤ place ∧ place < address + 1) := by
            omega
          simp only [cleared, same]
      have further := @ih (address + 1) (by omega)
      rw [Nat.add_assoc, Nat.add_comm 1 count] at further
      rw [writeBytes, ← further, ← extended]
      rfl

end Bytes

section Words

variable {memory other : Memory} {address place : Nat}

theorem load_store (memory : Memory) (address : Nat) (word : UInt64) :
    load (store memory address word) address = word := by
  have small : word.toNat < 256 ^ 8 := word.toNat_lt
  rw [load, store, read_written, Nat.mod_eq_of_lt small, UInt64.ofNat_toNat]

theorem load_congr
    (same : ∀ byte, address ≤ byte → byte < address + 8 → other byte = memory byte) :
    load other address = load memory address := by
  rw [load, load, read_bytes_congr same]

theorem store_outside (word : UInt64) (outside : place < address ∨ address + 8 ≤ place) :
    store memory address word place = memory place :=
  write_bytes_outside _ outside

theorem store_zero {first : Nat} (above : first ≤ address) :
    store (cleared memory first address) address 0 = cleared memory first (address + 8) :=
  write_zero_bytes above 8

theorem store_all_outside {words : List UInt64}
    (outside : place < address ∨ address + 8 * words.length ≤ place) :
    storeAll memory address words place = memory place := by
  induction words generalizing memory address with
  | nil => rfl
  | cons word rest ih =>
      rw [List.length_cons] at outside
      rw [storeAll, ih (by omega), store_outside word (by omega)]

theorem load_stored {words : List UInt64} {index : Nat} {word : UInt64}
    (listed : words[index]? = some word) :
    load (storeAll memory address words) (address + 8 * index) = word := by
  induction words generalizing memory address index with
  | nil => cases listed
  | cons first rest ih =>
      cases index with
      | zero =>
          have same : first = word := by simpa using listed
          subst same
          have kept : load (storeAll (store memory address first) (address + 8) rest) address =
              load (store memory address first) address :=
            load_congr fun byte lower upper => store_all_outside (by omega)
          have here : address + 8 * 0 = address := rfl
          rw [storeAll, here, kept, load_store]
      | succ index =>
          have later := @ih (store memory address first) (address + 8) index (by simpa using listed)
          rw [storeAll, ← later]
          congr 1
          omega

end Words

section Frames

variable {memory : Memory} {base : UInt64}

/-- The address of a word of a frame. Addresses wrap around. -/
def slot (base : UInt64) (index : Nat) : Nat := (base + 8 * UInt64.ofNat index).toNat

def storeFrom (memory : Memory) (base : UInt64) (first : Nat) : List UInt64 → Memory
  | [] => memory
  | word :: rest => storeFrom (store memory (slot base first) word) base (first + 1) rest

theorem load_store_apart {address place : Nat} {word : UInt64}
    (apart : address + 8 ≤ place ∨ place + 8 ≤ address) :
    load (store memory address word) place = load memory place :=
  load_congr fun byte lower upper => store_outside word (by omega)

/-- The words of a frame do not overlap, wherever the frame lies. -/
theorem slots_apart {left right : Nat} (leftSmall : left < 2 ^ 60) (rightSmall : right < 2 ^ 60)
    (different : left ≠ right) :
    slot base left + 8 ≤ slot base right ∨ slot base right + 8 ≤ slot base left := by
  have small := base.toNat_lt
  have value : ∀ index, index < 2 ^ 60 →
      slot base index = (base.toNat + 8 * index) % 2 ^ 64 := by
    intro index bound
    have eight : (8 : UInt64).toNat = 8 := rfl
    have inner : 8 * (index % 2 ^ 64) % 2 ^ 64 = 8 * index := by omega
    rw [slot, UInt64.toNat_add, UInt64.toNat_mul, UInt64.toNat_ofNat', eight, inner]
  rw [value left leftSmall, value right rightSmall]
  omega

theorem load_before_stored {words : List UInt64} {first index : Nat} (earlier : index < first)
    (fits : first + words.length ≤ 2 ^ 60) :
    load (storeFrom memory base first words) (slot base index) = load memory (slot base index) := by
  induction words generalizing memory first with
  | nil => rfl
  | cons word rest ih =>
      rw [List.length_cons] at fits
      rw [storeFrom, ih (by omega) (by omega)]
      exact load_store_apart (slots_apart (by omega) (by omega) (by omega))

theorem load_stored_from {words : List UInt64} {first index : Nat} {word : UInt64}
    (fits : first + words.length ≤ 2 ^ 60) (listed : words[index]? = some word) :
    load (storeFrom memory base first words) (slot base (first + index)) = word := by
  induction words generalizing memory first index with
  | nil => cases listed
  | cons head rest ih =>
      rw [List.length_cons] at fits
      cases index with
      | zero =>
          cases listed
          have here : slot base (first + 0) = slot base first := rfl
          rw [storeFrom, here, load_before_stored (by omega) (by omega), load_store]
      | succ index =>
          have later := @ih (store memory (slot base first) head) (first + 1) index (by omega) listed
          rwa [Nat.add_right_comm, Nat.add_assoc] at later

end Frames

end Tyrne.Lib.ByteMemory
