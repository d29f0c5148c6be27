import NoDrop.Lib.Bytes
import Mathlib.Data.List.TakeWhile
import Mathlib.Tactic.Common

/-! # A text in a buffer, piece by piece

Code of the form `off += snprintf(out + off, max - off, ...)` puts a text together in a buffer.
`snprintf` returns the length of its whole piece, whether there was room for it or not, and
the room is passed as a `size_t`: once `off` has passed `max` it is huge.

A `Printing` is what such code has done: where it is, and the calls it has made.  If the
pieces are shorter than the buffer as a whole, every call is inside it, and the buffer holds
the pieces one after the other with a `NUL` behind them (`Fits.printAll`).
-/
namespace NoDrop.Snprintf

open Bytes

/-- What `snprintf` stores: as much of a text as there is room for, and the `NUL`. -/
def stored (size : Nat) (text : List UInt8) : List UInt8 :=
  if size = 0 then [] else text.take (size - 1) ++ [0]

theorem stored_length_le (size : Nat) (text : List UInt8) : (stored size text).length ≤ size := by
  unfold stored
  split
  · exact Nat.zero_le _
  · rw [List.length_append, List.length_take, List.length_singleton]
    omega

theorem stored_of_lt {size : Nat} {text : List UInt8} (h : text.length < size) :
    stored size text = text ++ [0] := by
  rw [stored, if_neg (by omega), List.take_of_length_le (by omega)]

/-- A string in memory ends before its first `NUL`. -/
def cString (bytes : List UInt8) : List UInt8 := bytes.takeWhile (· ≠ 0)

theorem cString_append_zero {text : List UInt8} (h : ∀ c ∈ text, c ≠ 0) (rest : List UInt8) :
    cString (text ++ 0 :: rest) = text := by
  induction text with
  | nil => rfl
  | cons c cs ih =>
    have hc : c ≠ 0 := h c List.mem_cons_self
    rw [List.cons_append, cString, List.takeWhile_cons_of_pos (by simpa using hc)]
    exact congrArg _ (ih fun d hd => h d (List.mem_cons_of_mem _ hd))

/-- A `NUL` at the end is not part of the string. -/
theorem cString_append_end (bytes : List UInt8) : cString (bytes ++ [0]) = cString bytes := by
  induction bytes with
  | nil => rfl
  | cons c cs ih =>
    rw [List.cons_append, cString, cString, List.takeWhile_cons, List.takeWhile_cons]
    split
    · exact congrArg _ ih
    · rfl

theorem cString_ne_zero {bytes : List UInt8} {c : UInt8} (hc : c ∈ cString bytes) : c ≠ 0 := by
  simpa using List.mem_takeWhile_imp hc

theorem cString_length_le (bytes : List UInt8) : (cString bytes).length ≤ bytes.length :=
  (List.takeWhile_sublist _).length_le

/-- One call: where, the room it is told, and the text. -/
structure Call where
  off : Nat
  size : Nat
  text : List UInt8

/-- What the call stores. -/
def Call.write (c : Call) : Write := ⟨c.off, stored c.size c.text⟩

/-- `off` after the call. -/
def Call.next (c : Call) : Nat := c.off + c.text.length

/-- `max - off`, as a `size_t`. -/
def room (max off : Nat) : Nat := (((max : Int) - off) % 2 ^ 64).toNat

theorem room_of_le {max off : Nat} (hoff : off ≤ max) (hmax : max < 2 ^ 64) :
    room max off = max - off := by
  unfold room
  rw [Int.emod_eq_of_lt (by omega) (by omega)]
  omega

/-- Where the code is, and the calls it has made. -/
structure Printing where
  off : Nat
  calls : List Call

namespace Printing

/-- Nothing has been printed. -/
def start : Printing := ⟨0, []⟩

/-- `off += snprintf(out + off, max - off, ...)`. -/
def print (max : Nat) (s : Printing) (text : List UInt8) : Printing :=
  ⟨s.off + text.length, s.calls ++ [⟨s.off, room max s.off, text⟩]⟩

/-- Some texts, one after the other. -/
def printAll (max : Nat) (s : Printing) (texts : List (List UInt8)) : Printing :=
  texts.foldl (print max) s

/-- The text as a whole. -/
def text (s : Printing) : List UInt8 := (s.calls.map (·.text)).flatten

/-- The buffer afterwards. -/
def out (s : Printing) (img : Image) : Image := img.writes (s.calls.map Call.write)

theorem text_print (max : Nat) (s : Printing) (t : List UInt8) :
    (s.print max t).text = s.text ++ t := by
  simp [text, print]

theorem printAll_cons (max : Nat) (s : Printing) (t : List UInt8) (ts : List (List UInt8)) :
    s.printAll max (t :: ts) = (s.print max t).printAll max ts := rfl

theorem printAll_append (max : Nat) (s : Printing) (ts us : List (List UInt8)) :
    s.printAll max (ts ++ us) = (s.printAll max ts).printAll max us :=
  List.foldl_append

theorem printAll_off (max : Nat) (s : Printing) (ts : List (List UInt8)) :
    (s.printAll max ts).off = s.off + ts.flatten.length := by
  induction ts generalizing s with
  | nil => rfl
  | cons t ts ih =>
    rw [printAll_cons, ih, List.flatten_cons, List.length_append, ← Nat.add_assoc]
    rfl

theorem text_printAll (max : Nat) (s : Printing) (ts : List (List UInt8)) :
    (s.printAll max ts).text = s.text ++ ts.flatten := by
  induction ts generalizing s with
  | nil => simp [printAll]
  | cons t ts ih =>
    rw [printAll_cons, ih, text_print, List.flatten_cons, List.append_assoc]

/-- Everything printed so far is in the buffer. -/
structure Fits (max : Nat) (s : Printing) : Prop where
  off : s.off = s.text.length
  calls : ∀ c ∈ s.calls, c.size = max - c.off ∧ c.next < max ∧ c.write.stop ≤ max
  out : ∀ img, (s.out img).read 0 s.off = s.text
  ends : ∀ img, s.calls ≠ [] → s.out img s.off = 0

theorem Fits.start (max : Nat) : start.Fits max := by
  refine ⟨rfl, ?_, fun _ => rfl, fun _ h => absurd rfl h⟩
  intro c hc
  cases hc

/-- A piece for which there is room. -/
theorem Fits.print {max : Nat} {s : Printing} (h : s.Fits max) (hmax : max < 2 ^ 64)
    {t : List UInt8} (ht : s.off + t.length < max) : (s.print max t).Fits max := by
  have hroom : room max s.off = max - s.off := room_of_le (by omega) hmax
  have hstored : stored (room max s.off) t = t ++ [0] := stored_of_lt (by omega)
  have hout : ∀ img, (s.print max t).out img = (s.out img).write ⟨s.off, t ++ [0]⟩ := by
    intro img
    simp only [Printing.out, Printing.print, List.map_append, List.map_cons, List.map_nil,
      Image.writes_append, Image.writes_cons, Image.writes_nil, Call.write, hstored]
  refine ⟨?_, ?_, ?_, ?_⟩
  · rw [text_print, List.length_append, ← h.off]
    rfl
  · intro c hc
    rcases List.mem_append.mp hc with hc | hc
    · exact h.calls c hc
    · rw [List.mem_singleton.mp hc]
      refine ⟨hroom, ht, ?_⟩
      simp only [Write.stop, Call.write, hstored, List.length_append, List.length_singleton]
      omega
  · intro img
    rw [hout, text_print]
    show ((s.out img).write ⟨s.off, t ++ [0]⟩).read 0 (s.off + t.length) = _
    rw [Image.read_add]
    congr 1
    · rw [← h.out img]
      refine Image.read_congr fun i hi => Image.write_of_not_touches ?_
      rintro ⟨hlo, -⟩
      have hlo : s.off ≤ 0 + i := hlo
      omega
    · have hself := Image.read_write_self (s.out img) ⟨s.off, t ++ [0]⟩
      rw [List.length_append, Image.read_add] at hself
      rw [Nat.zero_add]
      exact (List.append_inj' hself (by simp)).1
  · intro img _
    rw [hout]
    have htouch : Write.Touches ⟨s.off, t ++ [0]⟩ (s.off + t.length) := by
      refine ⟨Nat.le_add_right .., ?_⟩
      simp [Write.stop]
    show (s.out img).write ⟨s.off, t ++ [0]⟩ (s.off + t.length) = 0
    rw [Image.write_of_touches htouch]
    simp

/-- **Pieces that are shorter than the room that is left.** -/
theorem Fits.printAll {max : Nat} {s : Printing} (h : s.Fits max) (hmax : max < 2 ^ 64)
    {ts : List (List UInt8)} (ht : s.off + ts.flatten.length < max) :
    (s.printAll max ts).Fits max := by
  induction ts generalizing s with
  | nil => exact h
  | cons t ts ih =>
    rw [List.flatten_cons, List.length_append] at ht
    apply ih (h.print hmax (by omega))
    show s.off + t.length + _ < max
    omega

end Printing

end NoDrop.Snprintf
