import NoDrop.Lib.Masks
import NoDrop.Quantities

/-! # Reading flags back

A record holds the portable flags of a system call, so that it can be read without the kernel's headers.
What is recorded was put together by a converter of `kmodule/flags.h`, bit by bit, and cut to the width
of the parameter.  Reading its table backwards gives the flags that the caller has passed, as far as the
converter knows them and as a single bit (`flags_read_back`).

Not all are: `O_TMPFILE` contains `O_DIRECTORY`, `O_SYNC` contains `O_DSYNC`, and `MAP_FILE` is no bit at
all.  A record says of these whether the caller has passed any bit of them.
-/
namespace NoDrop

open Bytes Filler Masks

/-! ## The converters -/

/-- A converter that is a chain of tests: whether it takes 32 bits, what it adds to the flags, and the pairs
it tests. -/
structure FlagConverter where
  convert : UInt64 → UInt64
  narrow : Bool
  extra : UInt64 → UInt64
  table : List (UInt64 × UInt64)

namespace FlagConverter

/-- What the converter sees of a register. -/
def reads (c : FlagConverter) (v : UInt64) : UInt64 := if c.narrow then lowWord v else v

/-- The entries that can be read back. -/
def known (c : FlagConverter) : List (UInt64 × UInt64) := c.table.filter fun p => isFlag p.1

/-- The table read backwards. -/
def decode (c : FlagConverter) (r : UInt64) : UInt64 := flagBits (c.known.map Prod.swap) r

/-- The flags of a table are in the low word. -/
def inLowWord (table : List (UInt64 × UInt64)) : Bool := table.all fun p => p.2 ≤ 0xffffffff

theorem lt_of_inLowWord {table : List (UInt64 × UInt64)} (h : inLowWord table = true) :
    ∀ p ∈ table, p.2.toNat < 2 ^ 32 := by
  intro p hp
  have hle : p.2 ≤ 0xffffffff := of_decide_eq_true (List.all_eq_true.mp h p hp)
  exact Nat.lt_succ_of_le (UInt64.le_iff_toNat_le.mp hle)

/-- A word that shares no bit with those of a table. -/
def sharesNone (x : UInt64) (table : List (UInt64 × UInt64)) : Bool :=
  table.all fun p => x &&& p.2 == 0

theorem and_of_sharesNone {x : UInt64} {table : List (UInt64 × UInt64)}
    (h : sharesNone x table = true) : ∀ p ∈ table, x &&& p.2 = 0 :=
  fun p hp => eq_of_beq (List.all_eq_true.mp h p hp)

/-- The converter is what its table says, and its flags are different ones, in the low word. -/
structure Sound (c : FlagConverter) : Prop where
  convert : ∀ v, c.convert v = c.extra v ||| flagBits c.table (c.reads v)
  independent : Independent c.table
  apart : ∀ v, ∀ p ∈ c.table, c.extra v &&& p.2 = 0
  table_lt : ∀ p ∈ c.table, p.2.toNat < 2 ^ 32
  extra_lt : ∀ v, (c.extra v).toNat < 2 ^ 32

/-- A converter that adds nothing. -/
def plain (convert : UInt64 → UInt64) (narrow : Bool) (table : List (UInt64 × UInt64)) :
    FlagConverter := ⟨convert, narrow, fun _ => 0, table⟩

theorem plain_sound {convert : UInt64 → UInt64} {narrow : Bool} {table : List (UInt64 × UInt64)}
    (hconvert : ∀ v, convert v = flagBits table (if narrow then lowWord v else v))
    (hind : tellsApart table = true) (hlow : inLowWord table = true) :
    (plain convert narrow table).Sound :=
  ⟨fun v => (hconvert v).trans UInt64.zero_or.symm, independent_of_tellsApart hind,
    fun _ _ _ => UInt64.zero_and, lt_of_inLowWord hlow, fun _ => Nat.two_pow_pos 32⟩

def access : FlagConverter := plain accessFlagsToScap true [(0x1, 0x1), (0x4, 0x4), (0x2, 0x2)]

def flock : FlagConverter :=
  plain flockFlagsToScap false [(0x2, 0x2), (0x1, 0x1), (0x8, 0x8), (0x4, 0x4)]

def unlinkat : FlagConverter := plain unlinkatFlagsToScap false [(0x200, 0x200)]

def linkat : FlagConverter := plain linkatFlagsToScap false [(0x400, 0x400), (0x1000, 0x1000)]

def execveat : FlagConverter := plain execveatFlagsToScap false [(0x1000, 0x1), (0x100, 0x2)]

def mode : FlagConverter := plain chmodModeToScap false modeBits

def prot : FlagConverter :=
  plain protFlagsToScap true
    [(0x1, 0x1), (0x2, 0x2), (0x4, 0x4), (0x8, 0x8), (0x1000000, 0x10), (0x2000000, 0x20)]

def mmap : FlagConverter :=
  plain mmapFlagsToScap true
    [(0x1, 0x1), (0x2, 0x2), (0x10, 0x4), (0x20, 0x8), (0x40, 0x10), (0x4000, 0x40),
      (0x8000, 0x80), (0x10000, 0x100), (0x100, 0x200), (0x800, 0x400), (0x1000, 0x800),
      (0, 0x2000), (0x2000, 0x4000)]

def clone : FlagConverter :=
  plain cloneFlagsToScap false
    [(0x400, 0x1), (0x200, 0x2), (0x80000000, 0x4), (0x8000000, 0x8), (0x40000000, 0x10),
      (0x20000, 0x20), (0x20000000, 0x40), (0x4000000, 0x80), (0x100000, 0x200), (0x8000, 0x100),
      (0x2000, 0x400), (0x800, 0x800), (0x40000, 0x1000), (0x10000, 0x2000), (0x800000, 0x4000),
      (0x100, 0x8000), (0x10000000, 0x100000), (0x200000, 0x800000), (0x1000000, 0x1000000),
      (0x80000, 0x2000000), (0x4000, 0x8000000), (0x2000000, 0x10000000)]

/-- What `f_proc_startupdate` records for a `clone`: a child in a namespace of its own is marked. -/
def cloneTask (inPidns : Bool) : FlagConverter where
  convert flags := cloneFlagsToScap flags ||| if inPidns then nodClChildInPidns else 0
  narrow := false
  extra _ := if inPidns then nodClChildInPidns else 0
  table := clone.table

def semget : FlagConverter := plain semgetFlagsToScap true [(0x200, 0x2000), (0x400, 0x4000)]

/-- The access mode of an `open` is a number, and comes beside the flags. -/
def openFlags : FlagConverter where
  convert := openFlagsToScap
  narrow := false
  extra flags := if flags &&& 3 = 1 then 2 else if flags &&& 3 = 2 then 3 else 1
  table :=
    [(oCreat, 0x4), (oTmpfile, 0x2000), (0x400, 0x8), (0x1000, 0x10), (0x80, 0x20), (0x800, 0x40),
      (0x101000, 0x80), (0x200, 0x100), (0x4000, 0x200), (0x10000, 0x400), (0x8000, 0x800),
      (0x80000, 0x1000)]

theorem access_sound : access.Sound := plain_sound (fun _ => rfl) (by decide) (by decide)
theorem flock_sound : flock.Sound := plain_sound (fun _ => rfl) (by decide) (by decide)
theorem unlinkat_sound : unlinkat.Sound := plain_sound (fun _ => rfl) (by decide) (by decide)
theorem linkat_sound : linkat.Sound := plain_sound (fun _ => rfl) (by decide) (by decide)
theorem execveat_sound : execveat.Sound := plain_sound (fun _ => rfl) (by decide) (by decide)
theorem mode_sound : mode.Sound := plain_sound (fun _ => rfl) (by decide) (by decide)
theorem prot_sound : prot.Sound := plain_sound (fun _ => rfl) (by decide) (by decide)
theorem mmap_sound : mmap.Sound := plain_sound (fun _ => rfl) (by decide) (by decide)
theorem clone_sound : clone.Sound := plain_sound (fun _ => rfl) (by decide) (by decide)
theorem semget_sound : semget.Sound := plain_sound (fun _ => rfl) (by decide) (by decide)

theorem cloneTask_sound (inPidns : Bool) : (cloneTask inPidns).Sound where
  convert v := UInt64.or_comm ..
  independent := clone_sound.independent
  apart _ := by
    cases inPidns with
    | false => exact fun _ _ => UInt64.zero_and
    | true =>
      show ∀ p ∈ clone.table, nodClChildInPidns &&& p.2 = 0
      exact and_of_sharesNone (by decide)
  table_lt := clone_sound.table_lt
  extra_lt _ := by
    cases inPidns with
    | false => exact Nat.two_pow_pos 32
    | true =>
      show nodClChildInPidns.toNat < 2 ^ 32
      decide

/-- The numbers of the access mode are not among the flags of `open`. -/
theorem openFlags_extra (v : UInt64) :
    sharesNone (openFlags.extra v) openFlags.table = true ∧ (openFlags.extra v).toNat < 2 ^ 32 := by
  have hcases : openFlags.extra v = 2 ∨ openFlags.extra v = 3 ∨ openFlags.extra v = 1 := by
    show (if v &&& 3 = 1 then 2 else if v &&& 3 = 2 then 3 else 1 : UInt64) = 2 ∨ _
    by_cases h1 : v &&& 3 = 1
    · exact .inl (if_pos h1)
    · by_cases h2 : v &&& 3 = 2
      · exact .inr (.inl ((if_neg h1).trans (if_pos h2)))
      · exact .inr (.inr ((if_neg h1).trans (if_neg h2)))
  rcases hcases with h | h | h
  · rw [h]
    decide
  · rw [h]
    decide
  · rw [h]
    decide

theorem openFlags_sound : openFlags.Sound where
  convert _ := rfl
  independent := independent_of_tellsApart (by decide)
  apart v := and_of_sharesNone (openFlags_extra v).1
  table_lt := lt_of_inLowWord (by decide)
  extra_lt v := (openFlags_extra v).2

theorem flagBits_eq (table : List (UInt64 × UInt64)) (v : UInt64) :
    flagBits table v = translate table v := by
  have hfold : ∀ acc, table.foldl (fun res p => if v &&& p.1 ≠ 0 then res ||| p.2 else res) acc =
      acc ||| translate table v := by
    induction table with
    | nil => exact fun acc => UInt64.or_zero.symm
    | cons p table ih =>
      intro acc
      rw [List.foldl_cons, ih, translate_cons]
      split
      · exact UInt64.or_assoc ..
      · rw [UInt64.zero_or]
  exact (hfold 0).trans UInt64.zero_or

variable {c : FlagConverter}

/-- Nothing is cut off. -/
theorem Sound.convert_lt (h : c.Sound) (v : UInt64) : (c.convert v).toNat < 2 ^ 32 := by
  rw [h.convert, UInt64.toNat_or, flagBits_eq]
  apply Nat.or_lt_two_pow (h.extra_lt v)
  apply union_lt
  intro w hw
  obtain ⟨p, hp, rfl⟩ := List.mem_map.mp hw
  exact h.table_lt p (List.mem_of_mem_filter hp)

theorem Sound.convert_bit (h : c.Sound) (v : UInt64) :
    ∀ p ∈ c.table, c.convert v &&& p.2 ≠ 0 ↔ c.reads v &&& p.1 ≠ 0 := by
  intro p hp
  rw [h.convert, flagBits_eq]
  exact translate_bit h.independent hp (h.apart v p hp) (c.reads v)

theorem Sound.decode_convert (h : c.Sound) (v : UInt64) :
    c.decode (c.convert v) = c.reads v &&& union (c.known.map Prod.fst) := by
  rw [h.convert, decode, flagBits_eq, flagBits_eq]
  have hsub : ∀ p ∈ c.known, p ∈ c.table := fun p hp => List.mem_of_mem_filter hp
  refine translate_back h.independent hsub (fun p hp => ?_) (fun p hp => ?_) (c.reads v)
  · exact (List.mem_filter.mp hp).2
  · exact h.apart v p (hsub p hp)

end FlagConverter

/-! ## The parameters -/

/-- A parameter that holds converted flags: of which system call it is which parameter, and of which
argument it is made. -/
structure FlagParam where
  nr : UInt32
  param : Nat
  arg : Fin 6
  converter : FlagConverter

/-- The parameters made of a register. -/
def flagParams (k : Kernel) : List FlagParam :=
  [⟨2, 2, 1, .openFlags⟩, ⟨9, 2, 2, .prot⟩, ⟨9, 3, 3, .mmap⟩, ⟨10, 2, 2, .prot⟩, ⟨21, 0, 1, .access⟩,
    ⟨56, 15, 0, .cloneTask k.inPidns⟩, ⟨64, 2, 2, .semget⟩, ⟨73, 1, 1, .flock⟩, ⟨90, 2, 1, .mode⟩,
    ⟨91, 2, 1, .mode⟩, ⟨257, 3, 2, .openFlags⟩, ⟨263, 3, 2, .unlinkat⟩, ⟨265, 5, 4, .linkat⟩,
    ⟨268, 3, 2, .mode⟩, ⟨272, 0, 0, .clone⟩, ⟨308, 1, 1, .clone⟩, ⟨322, 2, 4, .execveat⟩]

section Params

variable {k : Kernel} {s : Syscall} {ty : EventType}

/-- The flags of a `clone` come after the fields of the process and its control groups. -/
theorem fProcStartupdate_puts_flags :
    (fProcStartupdate k s : CheckedFiller .syscallClone_20).filler.Puts 15
      (.imm ((FlagConverter.cloneTask k.inPidns).convert (s.arg 0))) := by
  simp only [fProcStartupdate, CheckedFiller.filler_after, CheckedFiller.filler_asserts,
    CheckedFiller.filler]
  refine (procHead_fills (i := 0)).seq_puts (j := 1) ?_ rfl
  exact puts_scratch rfl

/-- The flags of an `execveat` come before them. -/
theorem execveat_puts_flags : (fillerCallback k s .syscallExecveat).filler.Puts 2
    (.imm (FlagConverter.execveat.convert (s.arg 4))) := by
  have hrow : eventRow k s .syscallExecveat = some ⟨fSysExecveat k s, []⟩ := rfl
  refine fillerCallback_puts_callback hrow (c := 2) ?_ rfl
  simp only [fSysExecveat, CheckedFiller.filler_after]
  rfl

/-- What a parameter is pushed with. -/
structure FlagParam.Pushed (f : FlagParam) (k : Kernel) (s : Syscall) : Prop where
  traced : f.nr.toNat < tableSize
  sound : f.converter.Sound
  width : ((gEventInfo (gSyscallEventTable f.nr.toNat)).param f.param).type.width = some 4
  puts : ∃ v : Value, (fillerCallback k s (gSyscallEventTable f.nr.toNat)).filler.Puts f.param v ∧
    v.val = f.converter.convert (s.arg f.arg)

theorem flagParams_pushed {f : FlagParam} (hf : f ∈ flagParams k) : f.Pushed k s := by
  revert f
  unfold flagParams
  simp only [List.forall_mem_cons, List.not_mem_nil, false_imp_iff, implies_true, and_true]
  open FlagConverter in
  exact ⟨⟨by decide, openFlags_sound, rfl, _, rfl, rfl⟩, ⟨by decide, prot_sound, rfl, _, rfl, rfl⟩,
    ⟨by decide, mmap_sound, rfl, _, rfl, rfl⟩, ⟨by decide, prot_sound, rfl, _, rfl, rfl⟩,
    ⟨by decide, access_sound, rfl, _, rfl, rfl⟩,
    ⟨show 56 < tableSize by decide, cloneTask_sound _, rfl, _, fProcStartupdate_puts_flags, rfl⟩,
    ⟨by decide, semget_sound, rfl, _, rfl, rfl⟩, ⟨by decide, flock_sound, rfl, _, rfl, rfl⟩,
    ⟨by decide, mode_sound, rfl, _, rfl, rfl⟩, ⟨by decide, mode_sound, rfl, _, rfl, rfl⟩,
    ⟨by decide, openFlags_sound, rfl, _, rfl, rfl⟩, ⟨by decide, unlinkat_sound, rfl, _, rfl, rfl⟩,
    ⟨by decide, linkat_sound, rfl, _, rfl, rfl⟩, ⟨by decide, mode_sound, rfl, _, rfl, rfl⟩,
    ⟨by decide, clone_sound, rfl, _, rfl, rfl⟩, ⟨by decide, clone_sound, rfl, _, rfl, rfl⟩,
    ⟨show 322 < tableSize by decide, execveat_sound, rfl, _, execveat_puts_flags, rfl⟩⟩

/-- **Flags are read back**: of a recorded system call, every bit of a flags parameter says whether the
caller has passed the flag it stands for, and the table read backwards gives all of these that are single
bits. -/
theorem flags_read_back {f : FlagParam} (hf : f ∈ flagParams k) (hnr : s.nr = f.nr) {ts : UInt64}
    {tid : UInt32} {cpuid : UInt16} {force : Bool} {size off : Nat}
    (hstart : 2 * (s.traced k ts tid cpuid force).nargs ≤ off) (hoff : off ≤ size)
    (hsize : size < 2 ^ 32)
    (hs : (s.traced k ts tid cpuid force).Succeeds
      ((s.traced k ts tid cpuid force).attempt size off)) (img : Image) :
    let r := UInt64.ofNat (leNat ((s.traced k ts tid cpuid force).laid size off f.param img))
    (∀ p ∈ f.converter.table, r &&& p.2 ≠ 0 ↔ f.converter.reads (s.arg f.arg) &&& p.1 ≠ 0) ∧
      f.converter.decode r =
        f.converter.reads (s.arg f.arg) &&& union (f.converter.known.map Prod.fst) := by
  obtain ⟨htraced, hsound, hwidth, v, hputs, hval⟩ := flagParams_pushed (s := s) hf
  rw [← hnr] at htraced hwidth hputs
  have hlaid := traced_laid htraced hstart hoff hsize hs hputs hwidth img
  have hlt : v.val.toNat < 256 ^ 4 := hval ▸ hsound.convert_lt (s.arg f.arg)
  dsimp only
  rw [hlaid, leNat_leBytes_of_lt hlt, UInt64.ofNat_toNat, hval]
  exact ⟨hsound.convert_bit _, hsound.decode_convert _⟩

end Params

/-- `flock` of a descriptor, with `LOCK_EX | LOCK_NB`. -/
def flockCall : Syscall :=
  { Syscall.idle with
    nr := 73
    arg := fun i => if i = 1 then 6 else 3 }

theorem flags_read_back_flock :
    FlagConverter.flock.decode (UInt64.ofNat (leNat
      ((flockCall.traced Kernel.idle 0 0 0 false).laid 4068 6 1 fun _ => 0))) = 6 := by
  have hmem : (⟨73, 1, 1, .flock⟩ : FlagParam) ∈ flagParams Kernel.idle := by
    unfold flagParams
    simp only [List.mem_cons, true_or, or_true]
  have hs : (flockCall.traced Kernel.idle 0 0 0 false).Succeeds
      ((flockCall.traced Kernel.idle 0 0 0 false).attempt 4068 6) := by
    constructor <;> decide +kernel
  exact (flags_read_back hmem rfl (by decide) (by decide) (by decide) hs _).2.trans (by decide +kernel)

end NoDrop
