import NoDrop.Lib.Bytes
import NoDrop.MmapCheck
import NoDrop.ValToRing

/-! # The kernel under the loader

The loader of `kmodule/loader.c` and `kmodule/elf.c` works on the address space of the
current task through a handful of functions of the kernel: `vm_mmap`, `vm_munmap`,
`vm_brk_flags`, `copy_to_user` and its siblings, `strnlen_user` and `vmalloc`.  What each of
them does to the address space is defined here.  What it returns is not: it is up to the
kernel (`Kern`), which may decide each call by all that has happened before, and what the
loader may rely on is stated as a hypothesis (`Kern.Maps`).

Every call is noted in a log together with what it returned.
-/
namespace NoDrop

open Areas Bytes

/-! ## Addresses -/

/-- `TASK_SIZE`. -/
def taskSize : Nat := 0x7ffffffff000

/-- `BAD_ADDR`: not an address of user space, but an error. -/
def BadAddr (x : UInt64) : Prop := taskSize ≤ x.toNat

instance instDecidableBadAddr (x : UInt64) : Decidable (BadAddr x) :=
  inferInstanceAs (Decidable (_ ≤ _))

/-- `PAGE_ALIGN`, where it does not overflow. -/
def pageAlign (n : Nat) : Nat := (n + pageSize - 1) / pageSize * pageSize

theorem pageAlign_of_aligned {n : Nat} (h : n % pageSize = 0) : pageAlign n = n := by
  unfold pageAlign pageSize at *
  omega

theorem pageAlign_mod (n : Nat) : pageAlign n % pageSize = 0 := Nat.mul_mod_left ..

theorem le_pageAlign (n : Nat) : n ≤ pageAlign n := by
  unfold pageAlign pageSize
  omega

/-! ## Data -/

/-- The address space of the current task: its areas, and the bytes in them. -/
structure AddrSpace (File : Type) where
  mmap : List (Vma File)
  mem : Image

/-- The calls that the loader makes. -/
inductive Request (File : Type) where
  | vmMmap (file : Option File) (addr len : UInt64) (prot : Prot) (fixed : Bool) (off : UInt64)
  | vmBrkFlags (addr len : UInt64)
  | clearUser (addr len : UInt64)
  | copyToUser (addr : UInt64) (len : Nat)
  | putUser (addr : UInt64)
  | strnlenUser (addr : UInt64) (count : Nat)
  | vmalloc (size : Nat)
deriving DecidableEq, Repr

/-- The address space, and the calls made so far with what they returned.  `underflow` notes
that a subtraction of `elf_map` has wrapped around. -/
structure Sys (File : Type) where
  space : AddrSpace File
  log : List (Request File × UInt64)
  underflow : Bool

/-- The kernel: what a call returns, and what the files contain. -/
structure Kern (File : Type) where
  answer : Sys File → Request File → UInt64
  content : File → List UInt8

namespace Sys

variable {File : Type}

/-! ## The calls -/

/-- The call is noted. -/
def note (s : Sys File) (req : Request File) (ret : UInt64) : Sys File :=
  { s with log := s.log ++ [(req, ret)] }

/-- What a new area contains: the file's bytes from `off` on, and 0 behind its end and
without a file. -/
def fresh (k : Kern File) (file : Option File) (off i : Nat) : UInt8 :=
  match file with
  | some f => (k.content f).getD (off + i) 0
  | none => 0

/-- A new area from `start` on. -/
def mapArea (k : Kern File) (start len : Nat) (info : VmInfo File) (off : Nat) (s : Sys File) :
    Sys File :=
  { s with
    space :=
      { mmap := Areas.map ⟨start, start + len, info⟩ s.space.mmap
        mem := fun x =>
          if start ≤ x ∧ x < start + len then fresh k info.vmFile off (x - start)
          else s.space.mem x } }

/-- `vm_mmap(file, addr, len, prot, MAP_PRIVATE, off)`, with `MAP_FIXED` if `fixed` and with
`MAP_ANONYMOUS` if there is no file. -/
def vmMmap (k : Kern File) (owner : Owner File) (file : Option File) (addr len : UInt64)
    (prot : Prot) (fixed : Bool) (off : UInt64) (s : Sys File) : UInt64 × Sys File :=
  let req := Request.vmMmap file addr len prot fixed off
  let ret := k.answer s req
  let s := s.note req ret
  if BadAddr ret then (ret, s)
  else (ret, s.mapArea k ret.toNat (pageAlign len.toNat) ⟨file, prot, owner⟩ off.toNat)

/-- `vm_munmap`, which refuses what is not a range of pages of user space. -/
def vmMunmap (addr len : UInt64) (s : Sys File) : Sys File :=
  if addr.toNat % pageSize ≠ 0 ∨ len = 0 ∨ taskSize < addr.toNat + pageAlign len.toNat then s
  else
    { s with
      space.mmap := Areas.unmap addr.toNat (addr.toNat + pageAlign len.toNat) s.space.mmap }

/-- `vm_brk_flags`: anonymous memory at `addr`, or an error. -/
def vmBrkFlags (k : Kern File) (owner : Owner File) (addr len : UInt64) (exec : Bool)
    (s : Sys File) : UInt64 × Sys File :=
  let req := Request.vmBrkFlags addr len
  let ret := k.answer s req
  let s := s.note req ret
  if ret ≠ 0 then (ret, s)
  else (ret, s.mapArea k addr.toNat (pageAlign len.toNat) ⟨none, ⟨true, true, exec⟩, owner⟩ 0)

/-- The bytes are stored. -/
def store (s : Sys File) (addr : Nat) (data : List UInt8) : Sys File :=
  { s with space.mem := s.space.mem.write ⟨addr, data⟩ }

/-- `copy_to_user`: the number of bytes that were not copied. -/
def copyToUser (k : Kern File) (addr : UInt64) (data : List UInt8) (s : Sys File) :
    UInt64 × Sys File :=
  let req := Request.copyToUser addr data.length
  let ret := k.answer s req
  (ret, (s.note req ret).store addr.toNat (data.take (data.length - ret.toNat)))

/-- `clear_user`: the number of bytes that were not cleared. -/
def clearUser (k : Kern File) (addr len : UInt64) (s : Sys File) : UInt64 × Sys File :=
  let req := Request.clearUser addr len
  let ret := k.answer s req
  (ret, (s.note req ret).store addr.toNat (List.replicate (len.toNat - ret.toNat) 0))

/-- `put_user` of 64 bits: 0, or an error. -/
def putUser (k : Kern File) (addr : UInt64) (v : UInt64) (s : Sys File) : UInt64 × Sys File :=
  let req := Request.putUser addr
  let ret := k.answer s req
  let s := s.note req ret
  if ret ≠ 0 then (ret, s) else (ret, s.store addr.toNat (leBytes 8 v.toNat))

/-- `strnlen_user`: the length of a string with its terminator. -/
def strnlenUser (k : Kern File) (addr : UInt64) (count : Nat) (s : Sys File) : UInt64 × Sys File :=
  let req := Request.strnlenUser addr count
  let ret := k.answer s req
  (ret, s.note req ret)

/-- `vmalloc`: an address, or null. -/
def vmalloc (k : Kern File) (size : Nat) (s : Sys File) : UInt64 × Sys File :=
  let req := Request.vmalloc size
  let ret := k.answer s req
  (ret, s.note req ret)

end Sys

/-! ## What the calls do -/

namespace Sys

variable {File : Type} {k : Kern File} {s : Sys File}

theorem lookup_mapArea (hs : Sorted s.space.mmap) {len : Nat} (hlen : 0 < len) (start : Nat)
    (info : VmInfo File) (off x : Nat) :
    lookup (s.mapArea k start len info off).space.mmap x =
      if start ≤ x ∧ x < start + len then some info else lookup s.space.mmap x :=
  lookup_map hs (Nat.lt_add_of_pos_right hlen) x

theorem sorted_mapArea (hs : Sorted s.space.mmap) {len : Nat} (hlen : 0 < len) (start : Nat)
    (info : VmInfo File) (off : Nat) : Sorted (s.mapArea k start len info off).space.mmap :=
  hs.map (Nat.lt_add_of_pos_right hlen)

/-- `vm_mmap` fails, or maps an area where it says. -/
theorem vmMmap_cases (k : Kern File) (owner : Owner File) (file : Option File) (addr len : UInt64)
    (prot : Prot) (fixed : Bool) (off : UInt64) (s : Sys File) :
    let req := Request.vmMmap file addr len prot fixed off
    let ret := k.answer s req
    (BadAddr ret ∧ s.vmMmap k owner file addr len prot fixed off = (ret, s.note req ret)) ∨
    (¬BadAddr ret ∧ s.vmMmap k owner file addr len prot fixed off =
      (ret, (s.note req ret).mapArea k ret.toNat (pageAlign len.toNat) ⟨file, prot, owner⟩
        off.toNat)) := by
  unfold vmMmap
  dsimp only
  split
  · exact .inl ⟨by assumption, rfl⟩
  · exact .inr ⟨by assumption, rfl⟩

theorem vmMmap_log (owner : Owner File) (file : Option File) (addr len : UInt64) (prot : Prot)
    (fixed : Bool) (off : UInt64) (s : Sys File) :
    (s.vmMmap k owner file addr len prot fixed off).2.log = s.log ++
      [(.vmMmap file addr len prot fixed off,
        (s.vmMmap k owner file addr len prot fixed off).1)] := by
  rcases vmMmap_cases k owner file addr len prot fixed off s with ⟨-, h⟩ | ⟨-, h⟩
  · rw [h]
    rfl
  · rw [h]
    rfl

theorem vmBrkFlags_fst (owner : Owner File) (addr len : UInt64) (exec : Bool) (s : Sys File) :
    (s.vmBrkFlags k owner addr len exec).1 = k.answer s (.vmBrkFlags addr len) := by
  unfold vmBrkFlags
  dsimp only
  split <;> rfl

theorem vmBrkFlags_log (owner : Owner File) (addr len : UInt64) (exec : Bool) (s : Sys File) :
    (s.vmBrkFlags k owner addr len exec).2.log =
      s.log ++ [(.vmBrkFlags addr len, (s.vmBrkFlags k owner addr len exec).1)] := by
  unfold vmBrkFlags
  dsimp only
  split <;> rfl

/-- What `vm_munmap` leaves of the areas, in the range or outside. -/
theorem lookup_vmMunmap (hs : Sorted s.space.mmap) {addr len : UInt64}
    (ha : addr.toNat % pageSize = 0) (hl : len.toNat % pageSize = 0)
    (htop : addr.toNat + len.toNat ≤ taskSize) (x : Nat) :
    lookup (s.vmMunmap addr len).space.mmap x =
      if addr.toNat ≤ x ∧ x < addr.toNat + len.toNat then none else lookup s.space.mmap x := by
  unfold vmMunmap
  rw [pageAlign_of_aligned hl]
  by_cases hz : len = 0
  · have hlen : len.toNat = 0 := by rw [hz]; rfl
    rw [if_pos (.inr (.inl hz)), if_neg (by omega)]
  · rw [if_neg (by rw [not_or, not_or]; exact ⟨not_not.mpr ha, hz, Nat.not_lt.mpr htop⟩)]
    exact lookup_unmap hs (Nat.le_add_right ..) x

/-- Outside the range nothing changes, whatever the range is. -/
theorem lookup_vmMunmap_of_outside (hs : Sorted s.space.mmap) {addr len : UInt64} {x : Nat}
    (hx : x < addr.toNat ∨ addr.toNat + pageAlign len.toNat ≤ x) :
    lookup (s.vmMunmap addr len).space.mmap x = lookup s.space.mmap x := by
  unfold vmMunmap
  split
  · rfl
  · exact (lookup_unmap hs (Nat.le_add_right ..) x).trans (if_neg (by omega))

theorem sorted_vmMunmap (hs : Sorted s.space.mmap) (addr len : UInt64) :
    Sorted (s.vmMunmap addr len).space.mmap := by
  unfold vmMunmap
  split
  · exact hs
  · exact hs.unmap (Nat.le_add_right ..)

@[simp] theorem vmMunmap_mem (s : Sys File) (addr len : UInt64) :
    (s.vmMunmap addr len).space.mem = s.space.mem := by
  unfold vmMunmap
  split <;> rfl

@[simp] theorem vmMunmap_log (s : Sys File) (addr len : UInt64) :
    (s.vmMunmap addr len).log = s.log := by
  unfold vmMunmap
  split <;> rfl

@[simp] theorem vmMunmap_underflow (s : Sys File) (addr len : UInt64) :
    (s.vmMunmap addr len).underflow = s.underflow := by
  unfold vmMunmap
  split <;> rfl

end Sys

/-- The kernel did what it was asked to do. -/
def Granted {File : Type} : Request File × UInt64 → Prop
  | (.vmMmap .., ret) => ¬BadAddr ret
  | (.strnlenUser _ count, ret) => ¬(ret = 0 ∨ count < ret.toNat)
  | (.vmalloc _, ret) => ret ≠ 0
  | (.vmBrkFlags .., ret) | (.clearUser .., ret) | (.copyToUser .., ret) | (.putUser .., ret) =>
    ret = 0

instance instDecidableGranted {File : Type} : (e : Request File × UInt64) → Decidable (Granted e)
  | (.vmMmap .., ret) => inferInstanceAs (Decidable (¬BadAddr ret))
  | (.strnlenUser _ count, ret) => inferInstanceAs (Decidable (¬(ret = 0 ∨ count < ret.toNat)))
  | (.vmalloc _, ret) => inferInstanceAs (Decidable (ret ≠ 0))
  | (.vmBrkFlags .., ret) | (.clearUser .., ret) | (.copyToUser .., ret) | (.putUser .., ret) =>
    inferInstanceAs (Decidable (ret = 0))

/-! ## What the loader may rely on -/

/-- Nothing is mapped in the `len` addresses from `start` on. -/
def AddrSpace.Free {File : Type} (sp : AddrSpace File) (start len : Nat) : Prop :=
  ∀ x, start ≤ x → x < start + len → lookup sp.mmap x = none

/-- `vm_mmap` returns an error, or with `MAP_FIXED` the address it was given and else a range
of pages of user space in which nothing was mapped.  It fails for an empty range.
`vm_brk_flags` returns 0 or an error. -/
structure Kern.Maps {File : Type} (k : Kern File) : Prop where
  mmap : ∀ s file addr len prot fixed off ret,
    k.answer s (.vmMmap file addr len prot fixed off) = ret → ¬BadAddr ret →
    len ≠ 0 ∧ (fixed = true → ret = addr) ∧
      (fixed = false → ret.toNat % pageSize = 0 ∧ ret.toNat + pageAlign len.toNat ≤ taskSize ∧
        s.space.Free ret.toNat (pageAlign len.toNat))
  brk : ∀ s addr len, k.answer s (.vmBrkFlags addr len) = 0 ∨
    BadAddr (k.answer s (.vmBrkFlags addr len))

/-! ## A kernel with room -/

section Roomy

variable {File : Type}

/-- An address above all areas. -/
def AddrSpace.above (sp : AddrSpace File) : Nat :=
  pageAlign (sp.mmap.foldr (fun a top => max a.stop top) 0)

/-- The length of the string at `a` with its terminator, if there is one within `count` bytes. -/
def strnlen (m : Image) : Nat → Nat → Nat
  | 0, _ => 1
  | count + 1, a => if m a = 0 then 1 else 1 + strnlen m count (a + 1)

/-- A kernel that grants every call it has room for: new mappings are above all others. -/
def roomyKern (content : File → List UInt8) : Kern File where
  answer s req :=
    match req with
    | .vmMmap _ addr len _ fixed _ =>
      if len = 0 then -22
      else if fixed then addr
      else if s.space.above + pageAlign len.toNat ≤ taskSize then UInt64.ofNat s.space.above
      else -12
    | .strnlenUser addr count =>
      let len := strnlen s.space.mem count addr.toNat
      if len < 2 ^ 64 then UInt64.ofNat len else 0
    | .vmalloc _ => 0xffffc90000000000
    | _ => 0
  content := content

theorem lookup_above (l : List (Vma File)) {x : Nat}
    (hx : l.foldr (fun a top => max a.stop top) 0 ≤ x) : lookup l x = none := by
  induction l with
  | nil => rfl
  | cons a l ih =>
    rw [List.foldr_cons] at hx
    have hout : ¬a.Has x := fun h => absurd h.2 (by omega)
    have htail := ih (by omega)
    unfold lookup at htail ⊢
    rw [List.find?_cons_of_neg (by simpa using hout)]
    exact htail

theorem roomyKern_maps (content : File → List UInt8) : (roomyKern content).Maps := by
  constructor
  · intro s file addr len prot fixed off ret hret hgood
    simp only [roomyKern] at hret
    split at hret
    · exact absurd (by rw [← hret]; decide : BadAddr ret) hgood
    rename_i hne
    cases fixed with
    | true => exact ⟨hne, fun _ => by simpa using hret.symm, fun h => by cases h⟩
    | false =>
      rw [if_neg Bool.false_ne_true] at hret
      split at hret
      · rename_i hroom
        have hnat : ret.toNat = s.space.above := by
          rw [← hret]
          refine UInt64.toNat_ofNat_of_lt' (Nat.lt_of_le_of_lt (Nat.le_of_add_right_le hroom) ?_)
          decide
        refine ⟨hne, (fun h => by cases h), fun _ => ?_⟩
        rw [hnat]
        refine ⟨pageAlign_mod _, hroom, fun x hlo _ => ?_⟩
        exact lookup_above _ (Nat.le_trans (le_pageAlign _) hlo)
      · exact absurd (by rw [← hret]; decide : BadAddr ret) hgood
  · exact fun _ _ _ => .inl rfl

end Roomy

end NoDrop
