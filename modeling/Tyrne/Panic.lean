import Mathlib.Algebra.Group.Nat.Defs
import Tyrne.Console

/-!
# What a panic prints

`panic_entry` and `PanicClass` of `exceptions.rs`, and the panic handler of `main.rs`. The
report of an unhandled exception tells its class and its syndrome, and it comes out whole
whatever was being printed when the exception struck.
-/

namespace Tyrne.Panic

open Tyrne.Lib.Runs
open Tyrne.Console

set_option autoImplicit false

/-! ## The message -/

inductive PanicClass where
  | generic
  | unhandledIrqMode
  deriving DecidableEq, Repr

def PanicClass.fromU64 (raw : UInt64) : PanicClass :=
  if raw = 1 then .unhandledIrqMode else .generic

def PanicClass.asStr : PanicClass → String
  | .generic => "unhandled-class exception"
  | .unhandledIrqMode => "IRQ taken from unsupported mode (not curr_el_spx)"

def hexDigits : Nat → Nat → List Char
  | 0, _ => []
  | count + 1, value => hexDigits count (value / 16) ++ [Nat.digitChar (value % 16)]

def hex018 (value : UInt64) : String := "0x" ++ String.ofList (hexDigits 16 value.toNat)

def panicEntry (panicClass esr : UInt64) : String :=
  "tyrne: " ++ (PanicClass.fromU64 panicClass).asStr ++ "; ESR_EL1 = " ++ hex018 esr ++
    "; class id = " ++ toString panicClass.toNat

/-! ## What the message tells -/

theorem digit_char_inj : ∀ left < 16, ∀ right < 16,
    Nat.digitChar left = Nat.digitChar right → left = right := by decide

theorem hex_digits_length (count value : Nat) : (hexDigits count value).length = count := by
  induction count generalizing value with
  | zero => rfl
  | succ count ih => rw [hexDigits, List.length_append, ih, List.length_singleton]

theorem hex_digits_inj {count left right : Nat} (leftFits : left < 16 ^ count)
    (rightFits : right < 16 ^ count) (same : hexDigits count left = hexDigits count right) :
    left = right := by
  induction count generalizing left right with
  | zero =>
      rw [Nat.pow_zero] at leftFits rightFits
      omega
  | succ count ih =>
      rw [Nat.pow_succ] at leftFits rightFits
      have lengths : (hexDigits count (left / 16)).length = (hexDigits count (right / 16)).length := by
        rw [hex_digits_length, hex_digits_length]
      rcases List.append_inj same lengths with ⟨front, last⟩
      have high := ih (by omega) (by omega) front
      have low := digit_char_inj _ (Nat.mod_lt left (by decide)) _ (Nat.mod_lt right (by decide))
        (List.cons.inj last).1
      omega

theorem hex018_inj {left right : UInt64} (same : hex018 left = hex018 right) : left = right := by
  have digits := congrArg String.toList same
  simp only [hex018, String.toList_append, String.toList_ofList] at digits
  apply UInt64.toNat_inj.mp
  exact hex_digits_inj left.toNat_lt right.toNat_lt (List.append_cancel_left digits)

theorem decimal_inj {left right : Nat} (same : toString left = toString right) : left = right := by
  have read := congrArg (fun text => Nat.ofDigitChars 10 text.toList 0) same
  simpa [Nat.toString_eq_ofList_toDigits] using read

theorem class_told {left right : PanicClass} {leftRest rightRest : List Char}
    (same : left.asStr.toList ++ leftRest = right.asStr.toList ++ rightRest) : left = right := by
  have first := congrArg List.head? same
  cases left with
  | generic =>
      cases right with
      | generic => rfl
      | unhandledIrqMode => simp [PanicClass.asStr] at first
  | unhandledIrqMode =>
      cases right with
      | generic => simp [PanicClass.asStr] at first
      | unhandledIrqMode => rfl

theorem panic_entry_inj {panicClass esr otherClass otherEsr : UInt64}
    (same : panicEntry panicClass esr = panicEntry otherClass otherEsr) :
    panicClass = otherClass ∧ esr = otherEsr := by
  have text := congrArg String.toList same
  simp only [panicEntry, String.toList_append, List.append_assoc] at text
  have named := List.append_cancel_left text
  rw [class_told named] at named
  have behind := List.append_cancel_left (List.append_cancel_left named)
  have lengths : ∀ value, (hex018 value).toList.length = 18 := by
    intro value
    simp [hex018, hex_digits_length]
  rcases List.append_inj behind ((lengths esr).trans (lengths otherEsr).symm) with ⟨hex, rest⟩
  have number := String.toList_inj.mp (List.append_cancel_left rest)
  exact ⟨UInt64.toNat_inj.mp (decimal_inj number), hex018_inj (String.toList_inj.mp hex)⟩

/-! ## The panic handler -/

def panicMarker : String := "\n!! tyrne panic !!\n"

/-- `PanicInfo` as it is displayed. -/
def panicInfo (location message : String) : String := "panicked at " ++ location ++ ":\n" ++ message

def asBytes (text : String) : List UInt8 := text.toByteArray.data.toList

theorem as_bytes_append (front back : String) :
    asBytes (front ++ back) = asBytes front ++ asBytes back := by
  simp [asBytes]

theorem as_bytes_inj {left right : String} (same : asBytes left = asBytes right) : left = right := by
  apply String.toByteArray_inj.mp
  apply ByteArray.ext
  exact Array.toList_inj.mp same

theorem as_bytes_join (pieces : List String) (front : String) :
    asBytes (pieces.foldl (· ++ ·) front) = asBytes front ++ pieces.flatMap asBytes := by
  induction pieces generalizing front with
  | nil => simp
  | cons piece rest ih =>
      rw [List.foldl_cons, ih, as_bytes_append, List.flatMap_cons, List.append_assoc]

section Report

variable {uart : Pl011Uart} {depth : Nat} {after : State} {front back : List (Transition State Label)}
  {panicked : Transition State Label} {pieces : List String} {location : String}
  {panicClass esr : UInt64}

/-- The handler's marker, and then the pieces into which the formatter cuts the information
and the line end: the report of an unhandled exception follows whatever had been handed to
the UART when it struck, whole and in order, and no other class and syndrome give the same
bytes. -/
theorem panic_report_comes_out
    (run : Run (ConsoleStep uart depth) fresh (front ++ panicked :: back) after)
    (strikes : panicked.label = .panic (asBytes panicMarker))
    (goesOn : (labels back).filter Label.calls = pieces.map writeStr)
    (whole : String.join pieces = panicInfo location (panicEntry panicClass esr) ++ "\n")
    (returned : uart.access after.call = none) :
    after.handedOver = panicked.before.handedOver ++
        asBytes (panicMarker ++ panicInfo location (panicEntry panicClass esr) ++ "\n") ∧
      ∀ otherClass otherEsr, asBytes (panicInfo location (panicEntry otherClass otherEsr)) =
          asBytes (panicInfo location (panicEntry panicClass esr)) →
        otherClass = panicClass ∧ otherEsr = esr := by
  have calm : ∀ taken ∈ back, taken.label.panics = false := by
    intro taken member
    cases called : taken.label with
    | panic text =>
        have listed : taken.label ∈ (labels back).filter Label.calls :=
          List.mem_filter.mpr ⟨List.mem_map_of_mem member, by rw [called]; rfl⟩
        rw [goesOn, called] at listed
        rcases List.mem_map.mp listed with ⟨piece, _, isWrite⟩
        cases isWrite
    | writeBytes bytes => rfl
    | read value => rfl
    | write => rfl
    | send => rfl
  have out := panic_output run strikes calm
  have pending := access_none returned
  have joined := as_bytes_join pieces ""
  constructor
  · rw [pending, List.append_nil, ← mirrored_calls, goesOn, pieces_captured] at out
    rw [show pieces.foldl (· ++ ·) "" = _ from whole] at joined
    rw [out, List.append_assoc, String.append_assoc, as_bytes_append panicMarker, joined]
    rfl
  · intro otherClass otherEsr same
    have text := congrArg String.toList (as_bytes_inj same)
    simp only [panicInfo, String.toList_append] at text
    exact panic_entry_inj (String.toList_inj.mp (List.append_cancel_left text))

end Report

/-! ## A data abort in the middle of a word -/

def unhindered (bytes : List UInt8) : List Label := bytes.flatMap fun _ => [.read 0, .write]

def reportPieces : List String :=
  ["panicked at ", "src/exceptions.rs:259:5", ":\n", panicEntry 0 0x96000045, "\n"]

def upToPanic : List Label := [.writeBytes (asBytes "ok"), .read 0, .write]

def fromPanicOn : List Label :=
  unhindered (asBytes panicMarker) ++
    reportPieces.flatMap fun piece => writeStr piece :: unhindered (asBytes piece)

theorem panic_report_data_abort : ∃ front panicked back after,
    Run (ConsoleStep virtUart 256) fresh (front ++ panicked :: back) after ∧
      labels front = upToPanic ∧
      after.handedOver = panicked.before.handedOver ++ asBytes (panicMarker ++
        panicInfo "src/exceptions.rs:259:5" (panicEntry 0 0x96000045) ++ "\n") := by
  have ends : (follow (next virtUart 256) fresh
      (upToPanic ++ .panic (asBytes panicMarker) :: fromPanicOn)).map
        (fun state => virtUart.access state.call) = some none := by decide +kernel
  rcases Option.map_eq_some_iff.mp ends with ⟨after, followed, returned⟩
  rcases run_of_follow followed with ⟨trace, run, same⟩
  rcases List.map_eq_append_iff.mp same with ⟨front, rest, rfl, early, late⟩
  rcases List.map_eq_cons_iff.mp late with ⟨panicked, back, rfl, strikes, goesOn⟩
  have pieces : (labels back).filter Label.calls = reportPieces.map writeStr := by
    rw [labels, goesOn]
    decide +kernel
  have whole : String.join reportPieces =
      panicInfo "src/exceptions.rs:259:5" (panicEntry 0 0x96000045) ++ "\n" := by decide +kernel
  exact ⟨front, panicked, back, after, run, early,
    (panic_report_comes_out run strikes pieces whole returned).1⟩

end Tyrne.Panic
