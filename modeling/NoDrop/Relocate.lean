import NoDrop.Lib.Passes
import NoDrop.StartStack

/-! # The monitor relocates itself

The monitor is linked at address 0 and loaded somewhere else, so the first thing `_start_c` of
`monitor/src/startup.c` does, the first time the program is entered, is to go over its own
relocations.  It finds where it was loaded from the auxiliary vector and the program headers,
the tables from its dynamic section, and adds the base to every pointer they list: `REL` entries
have the link-time value in the place itself, `RELA` entries in the table.

A `LinkImage` is the program as the linker leaves it.  `Rebased` says what it is to be loaded:
every listed pointer has been moved by the base and every other byte is as linked.  The theorem
is that `_start_c`, entered on the stack that the kernel has built, leaves the program rebased
to where the kernel has put it and changes nothing else (`startRelocated_rebased`).
-/
namespace NoDrop

open Areas Bytes

namespace Startup

/-! ## `monitor/src/dynlink.h` -/

/-- `R_TYPE`. -/
def rType (x : Nat) : Nat := x &&& 0x7fffffff

/-- `R_SYM`. -/
def rSym (x : Nat) : Nat := x >>> 32

/-- `R_X86_64_RELATIVE`. -/
def relRelative : Nat := 8

/-- `REL_SYM_OR_REL`, a negative enumerator compared as a `size_t`. -/
def relSymOrRel : Nat := 2 ^ 64 - 92

/-- `IS_RELATIVE`. -/
def isRelative (x : Nat) : Bool :=
  rType x = relRelative || (rType x = relSymOrRel && rSym x = 0)

/-- `DYN_CNT` is `AUX_CNT`, and the loop over the dynamic section is the loop over the auxiliary
vector. -/
def scanDyn (m : Image) (fuel dynv : Nat) : Option (Nat → Nat) :=
  Loader.scanAux m fuel dynv fun _ => 0

/-- `DT_RELA`, `DT_RELASZ`, `DT_REL` and `DT_RELSZ`. -/
def dtRela : Nat := 7
def dtRelasz : Nat := 8
def dtRel : Nat := 17
def dtRelsz : Nat := 18

/-- `PT_DYNAMIC`. -/
def ptDynamic : Nat := 2

/-! ## `_start_c` -/

/-- The loop over the program headers. -/
def findDynamic (m : Image) (dynv phentsize : Nat) : Nat → Nat → Option Nat
  | 0, _ => none
  | i + 1, ph =>
    if leNat (m.read ph 4) = ptDynamic then
      some ((dynv + (2 ^ 64 - m.word (ph + 16))) % 2 ^ 64)
    else findDynamic m dynv phentsize i ((ph + phentsize) % 2 ^ 64)

/-- `base`: `AT_BASE` if it is given, else found with the program headers. -/
def loadBase (m : Image) (st : Loader.Started) (dynv : Nat) : Nat :=
  if st.aux atBase.toNat = 0 then
    (findDynamic m dynv (st.aux atPhent.toNat) (st.aux atPhnum.toNat)
      (st.aux atPhdr.toNat)).getD 0
  else st.aux atBase.toNat

/-- One entry of `REL`: `*rel_addr += base`. -/
def applyRel (base rel : Nat) (m : Image) : Image :=
  if isRelative (m.word (rel + 8)) then
    let relAddr := (base + m.word rel) % 2 ^ 64
    m.setWord relAddr ((m.word relAddr + base) % 2 ^ 64)
  else m

/-- One entry of `RELA`: `*rel_addr = base + rel[2]`. -/
def applyRela (base rel : Nat) (m : Image) : Image :=
  if isRelative (m.word (rel + 8)) then
    m.setWord ((base + m.word rel) % 2 ^ 64) ((base + m.word (rel + 16)) % 2 ^ 64)
  else m

/-- `_start_c` up to the call that never returns: the memory then.  `info` is the address of
`__info`, whose first word is `fsbase`; when it is set the program has been here before. -/
def startRelocated (fuel : Nat) (m : Image) (sp dynv info : Nat) : Option Image :=
  if m.word info ≠ 0 then some m
  else do
    let st ← Loader.startC fuel m sp
    let dyn ← scanDyn m fuel dynv
    let base := loadBase m st dynv
    let m ← tableLoop 16 (applyRel base) fuel ((base + dyn dtRel) % 2 ^ 64) (dyn dtRelsz) m
    tableLoop 24 (applyRela base) fuel ((base + dyn dtRela) % 2 ^ 64) (dyn dtRelasz) m

/-! ## What it is for -/

/-- A pointer of the program: where it is and what it points to, both as linked. -/
structure Pointer where
  off : Nat
  target : Nat
deriving DecidableEq, Repr

/-- An entry of one of the tables, by its link-time address. -/
inductive Entry where
  | rel (a : Nat)
  | rela (a : Nat)
deriving DecidableEq, Repr

def Entry.addr : Entry → Nat
  | .rel a => a
  | .rela a => a

def Entry.size : Entry → Nat
  | .rel _ => 16
  | .rela _ => 24

/-- **The program as the linker leaves it**, by link-time address. -/
structure LinkImage where
  bytes : Image
  size : Nat
  /-- The dynamic section, and its entries before `DT_NULL`. -/
  dynamic : Nat
  dyns : List (Nat × Nat)
  /-- `__info`. -/
  info : Nat

namespace LinkImage

variable (prog : LinkImage)

/-- The table the dynamic section makes. -/
def dyn : Nat → Nat := Loader.auxTable prog.dyns fun _ => 0

/-- The entries of the two tables, in the order of the loops. -/
def entries : List Entry :=
  (entryAddrs 16 (prog.dyn dtRel) (prog.dyn dtRelsz / 16)).map .rel ++
    (entryAddrs 24 (prog.dyn dtRela) (prog.dyn dtRelasz / 24)).map .rela

/-- The pointer an entry lists, if it is a relative one. -/
def pointer : Entry → Option Pointer
  | .rel a =>
      if isRelative (prog.bytes.word (a + 8)) then
        some ⟨prog.bytes.word a, prog.bytes.word (prog.bytes.word a)⟩
      else none
  | .rela a =>
      if isRelative (prog.bytes.word (a + 8)) then
        some ⟨prog.bytes.word a, prog.bytes.word (a + 16)⟩
      else none

/-- All pointers that are listed. -/
def pointers : List Pointer := prog.entries.filterMap prog.pointer

/-- The bytes of the two tables. -/
def InTables (i : Nat) : Prop :=
  prog.dyn dtRel ≤ i ∧ i < prog.dyn dtRel + prog.dyn dtRelsz ∨
    prog.dyn dtRela ≤ i ∧ i < prog.dyn dtRela + prog.dyn dtRelasz

/-- **What the linker promises**: the dynamic section, whole tables and the pointers are in the
program, no pointer is listed twice or overlaps another, none lies in a table, and the program
has not been entered yet. -/
structure WellLinked : Prop where
  dyns : ∀ i e, prog.dyns[i]? = some e → prog.bytes.word (prog.dynamic + 16 * i) = e.1 ∧
    prog.bytes.word (prog.dynamic + 16 * i + 8) = e.2
  tags : ∀ e ∈ prog.dyns, e.1 ≠ 0
  null : prog.bytes.word (prog.dynamic + 16 * prog.dyns.length) = 0
  dynamic_top : prog.dynamic + 16 * prog.dyns.length + 8 ≤ prog.size
  rel_whole : 16 ∣ prog.dyn dtRelsz
  rela_whole : 24 ∣ prog.dyn dtRelasz
  tables : ∀ i, prog.InTables i → i < prog.size
  inside : ∀ p ∈ prog.pointers, p.off + 8 ≤ prog.size
  apart : prog.pointers.Pairwise fun p q => p.off + 8 ≤ q.off ∨ q.off + 8 ≤ p.off
  outside : ∀ p ∈ prog.pointers, ∀ i, prog.InTables i → i < p.off ∨ p.off + 8 ≤ i
  info_top : prog.info + 8 ≤ prog.size
  fresh : prog.bytes.word prog.info = 0

/-- The program, as it is in the file, at `base`. -/
def LoadedAt (base : Nat) (m : Image) : Prop := ∀ o < prog.size, m (base + o) = prog.bytes o

/-- **The program, linked for `base`.** -/
structure Rebased (base : Nat) (m : Image) : Prop where
  pointer : ∀ p ∈ prog.pointers, m.word (base + p.off) = (base + p.target) % 2 ^ 64
  literal : ∀ o < prog.size, (∀ p ∈ prog.pointers, o < p.off ∨ p.off + 8 ≤ o) →
    m (base + o) = prog.bytes o

/-- The program headers of the file are in the program, and the first of type `PT_DYNAMIC` is
about its dynamic section. -/
structure Describes {File : Type} (exec : ElfImage File) : Prop where
  top : exec.ePhoff.toNat + 56 * exec.phdrs.length ≤ prog.size
  headers : ∀ i ph, exec.phdrs[i]? = some ph →
    leNat (prog.bytes.read (exec.ePhoff.toNat + 56 * i) 4) = ph.pType.toNat ∧
      prog.bytes.word (exec.ePhoff.toNat + 56 * i + 16) = ph.pVaddr.toNat
  dynamic : ∃ ph, exec.phdrs.find? (fun ph => ph.pType.toNat = ptDynamic) = some ph ∧
    ph.pVaddr.toNat = prog.dynamic

/-- How many rounds the longest loop takes. -/
def rounds : Nat :=
  prog.dyns.length + prog.dyn dtRelsz / 16 + prog.dyn dtRelasz / 24

end LinkImage

/-! ## One entry -/

section Entries

variable {prog : LinkImage} {base : Nat} {m m' : Image} {e : Entry} {p : Pointer}

/-- What the loops do with an entry. -/
def Entry.apply (base : Nat) : Entry → Image → Image
  | .rel a => applyRel base (base + a)
  | .rela a => applyRela base (base + a)

/-- The store that moves a pointer. -/
def Pointer.store (base : Nat) (p : Pointer) : Write :=
  ⟨base + p.off, leBytes 8 ((base + p.target) % 2 ^ 64)⟩

theorem Pointer.touches_store {i : Nat} :
    (p.store base).Touches i ↔ base + p.off ≤ i ∧ i < base + p.off + 8 := Iff.rfl

theorem Pointer.writes_store (m : Image) (base : Nat) (p : Pointer) :
    m.setWord (base + p.off) ((base + p.target) % 2 ^ 64) =
      m.writes ((some p).toList.map (Pointer.store base)) := by
  rw [Option.toList_some, List.map_singleton, Image.writes_cons, Image.writes_nil, Image.setWord,
    Pointer.store]

/-- The bytes an entry depends on: the tables, and the pointer it lists. -/
def Reads (prog : LinkImage) (base : Nat) (e : Entry) (i : Nat) : Prop :=
  ∃ o, i = base + o ∧
    (prog.InTables o ∨ ∃ p, prog.pointer e = some p ∧ p.off ≤ o ∧ o < p.off + 8)

theorem LinkImage.LoadedAt.word (h : prog.LoadedAt base m) {o : Nat} (ho : o + 8 ≤ prog.size) :
    m.word (base + o) = prog.bytes.word o := by
  have hread : m.read (base + o) 8 = prog.bytes.read o 8 := Image.read_congr fun i hi => by
    rw [Nat.add_assoc]
    exact h (o + i) (by omega)
  rw [Image.word, Image.word, hread]

theorem LinkImage.entries_inTables (hw : prog.WellLinked) (he : e ∈ prog.entries) {i : Nat}
    (hlo : e.addr ≤ i) (hhi : i < e.addr + e.size) : prog.InTables i := by
  have hrel := Nat.div_mul_cancel hw.rel_whole
  have hrela := Nat.div_mul_cancel hw.rela_whole
  rcases List.mem_append.mp he with he | he
  · obtain ⟨a, ha, rfl⟩ := List.mem_map.mp he
    obtain ⟨k, hk, rfl⟩ := List.mem_map.mp ha
    have hk := List.mem_range.mp hk
    simp only [Entry.addr, Entry.size] at hlo hhi
    exact .inl ⟨by omega, by omega⟩
  · obtain ⟨a, ha, rfl⟩ := List.mem_map.mp he
    obtain ⟨k, hk, rfl⟩ := List.mem_map.mp ha
    have hk := List.mem_range.mp hk
    simp only [Entry.addr, Entry.size] at hlo hhi
    exact .inr ⟨by omega, by omega⟩

/-- **An entry moves the pointer it lists**, whatever else has been moved before. -/
theorem Entry.apply_eq (hw : prog.WellLinked) (htop : base + prog.size ≤ 2 ^ 64)
    (hload : prog.LoadedAt base m) (he : e ∈ prog.entries)
    (hsame : ∀ i, Reads prog base e i → m' i = m i) :
    e.apply base m' = m'.writes ((prog.pointer e).toList.map (Pointer.store base)) := by
  -- the words of the entry, and the word it points at
  have hentry : ∀ o, e.addr ≤ o → o + 8 ≤ e.addr + e.size →
      m'.word (base + o) = prog.bytes.word o := by
    intro o hlo hhi
    have hin : ∀ i, o ≤ i → i < o + 8 → prog.InTables i := fun i hi hi' =>
      LinkImage.entries_inTables hw he (by omega) (by omega)
    have hlast := hw.tables (o + 7) (hin _ (by omega) (by omega))
    rw [← hload.word (show o + 8 ≤ prog.size by omega)]
    refine Image.word_congr fun i hi hi' => hsame i ⟨i - base, by omega, .inl ?_⟩
    exact hin _ (by omega) (by omega)
  have hplace : ∀ p, prog.pointer e = some p → p.off + 8 ≤ prog.size ∧
      m'.word (base + p.off) = prog.bytes.word p.off := by
    intro p hp
    have htop := hw.inside p (List.mem_filterMap.mpr ⟨e, he, hp⟩)
    refine ⟨htop, ?_⟩
    rw [← hload.word htop]
    exact Image.word_congr fun i hi hi' => hsame i
      ⟨i - base, by omega, .inr ⟨p, hp, by omega, by omega⟩⟩
  cases e with
  | rel a =>
    have hinfo := hentry (a + 8) (Nat.le_add_right ..) (Nat.le_refl _)
    have hoff := hentry a (Nat.le_refl _) (Nat.add_le_add_left (show 8 ≤ 16 by decide) a)
    rw [Entry.apply, applyRel, Nat.add_assoc, hinfo, hoff]
    rw [LinkImage.pointer] at hplace ⊢
    by_cases hr : isRelative (prog.bytes.word (a + 8)) = true
    · obtain ⟨hin, hold⟩ := hplace _ (if_pos hr)
      dsimp only at hin hold
      have hlt : base + prog.bytes.word a < 2 ^ 64 := by omega
      rw [if_pos hr, if_pos hr, Nat.mod_eq_of_lt hlt]
      dsimp only
      rw [hold, Nat.add_comm _ base]
      exact Pointer.writes_store m' base ⟨_, prog.bytes.word (prog.bytes.word a)⟩
    · rw [if_neg hr, if_neg hr]
      rfl
  | rela a =>
    have hinfo := hentry (a + 8) (Nat.le_add_right ..)
      (Nat.add_le_add_left (show 8 + 8 ≤ 24 by decide) a)
    have hoff := hentry a (Nat.le_refl _) (Nat.add_le_add_left (show 8 ≤ 24 by decide) a)
    have hadd := hentry (a + 16) (Nat.le_add_right ..) (Nat.le_refl _)
    rw [Entry.apply, applyRela, Nat.add_assoc, Nat.add_assoc, hinfo, hoff, hadd]
    rw [LinkImage.pointer] at hplace ⊢
    by_cases hr : isRelative (prog.bytes.word (a + 8)) = true
    · have hin := (hplace _ (if_pos hr)).1
      dsimp only at hin
      have hlt : base + prog.bytes.word a < 2 ^ 64 := by omega
      rw [if_pos hr, if_pos hr, Nat.mod_eq_of_lt hlt]
      exact Pointer.writes_store m' base ⟨_, prog.bytes.word (a + 16)⟩
    · rw [if_neg hr, if_neg hr]
      rfl

/-! ## All entries -/

/-- **The two loops are one list of stores**, one for each pointer. -/
theorem pass_entries (hw : prog.WellLinked) (htop : base + prog.size ≤ 2 ^ 64)
    (hload : prog.LoadedAt base m) :
    pass (Entry.apply base) prog.entries m = m.writes (prog.pointers.map (Pointer.store base)) := by
  have heff : prog.entries.flatMap (fun e => (prog.pointer e).toList.map (Pointer.store base)) =
      prog.pointers.map (Pointer.store base) := by
    rw [LinkImage.pointers, List.filterMap_eq_flatMap_toList, List.map_flatMap]
  rw [← heff]
  refine pass_eq (fun e he m' hsame => Entry.apply_eq hw htop hload he hsame) ?_
  have hpairs := List.pairwise_filterMap.mp hw.apart
  refine hpairs.imp_of_mem fun {e e'} he he' h w hwr i hi => ?_
  obtain ⟨p, hp, rfl⟩ := List.mem_map.mp hwr
  have hp := Option.mem_toList.mp hp
  obtain ⟨o, rfl, hin | ⟨q, hq, hlo, hhi⟩⟩ := hi
  · have hout := hw.outside p (List.mem_filterMap.mpr ⟨e, he, hp⟩) o hin
    rw [Pointer.touches_store]
    omega
  · have hpq := h p hp q hq
    rw [Pointer.touches_store]
    omega

/-- What the stores leave. -/
theorem rebased_writes (hw : prog.WellLinked) (hload : prog.LoadedAt base m) :
    prog.Rebased base (m.writes (prog.pointers.map (Pointer.store base))) ∧
      ∀ i, i < base ∨ base + prog.size ≤ i →
        m.writes (prog.pointers.map (Pointer.store base)) i = m i := by
  have hapart : (prog.pointers.map (Pointer.store base)).Pairwise Write.Apart := by
    refine List.pairwise_map.mpr (hw.apart.imp fun {p q} h => ?_)
    show base + p.off + 8 ≤ base + q.off ∨ base + q.off + 8 ≤ base + p.off
    omega
  have hout : ∀ i, (∀ p ∈ prog.pointers, i < base + p.off ∨ base + p.off + 8 ≤ i) →
      m.writes (prog.pointers.map (Pointer.store base)) i = m i := by
    intro i h
    refine Image.writes_of_untouched fun w hwm => ?_
    obtain ⟨p, hp, rfl⟩ := List.mem_map.mp hwm
    have := h p hp
    rw [Pointer.touches_store]
    omega
  refine ⟨⟨fun p hp => ?_, fun o ho h => ?_⟩, fun i hi => ?_⟩
  · have hread := read_writes_of_apart hapart (List.mem_map_of_mem hp) m
    rw [Pointer.store, leBytes_length] at hread
    rw [Image.word, hread]
    exact leNat_leBytes_of_lt (Nat.mod_lt _ (by decide))
  · rw [hout (base + o) fun p hp => ?_]
    · exact hload o ho
    · have := h p hp
      omega
  · refine hout i fun p hp => ?_
    have := hw.inside p hp
    omega

/-- A loop over one of the tables is the pass over its entries. -/
theorem tableLoop_entries (hlt : base + prog.size < 2 ^ 64) {size start bytes : Nat}
    (hpos : 0 < size) (hwhole : size ∣ bytes)
    (hin : ∀ i, start ≤ i → i < start + bytes → i < prog.size) (each : Nat → Image → Image)
    {fuel : Nat} (hfuel : bytes / size ≤ fuel) (m : Image) :
    tableLoop size each fuel ((base + start) % 2 ^ 64) bytes m =
      some (pass (fun a => each (base + a)) (entryAddrs size start (bytes / size)) m) := by
  obtain ⟨n, rfl⟩ := hwhole
  rw [Nat.mul_div_cancel_left n hpos] at hfuel ⊢
  rcases Nat.eq_zero_or_pos n with rfl | hn
  · cases fuel <;> exact if_pos rfl
  · have hlast : 0 < size * n := Nat.mul_pos hpos hn
    have hend := hin (start + size * n - 1) (by omega) (by omega)
    have haddrs : entryAddrs size (base + start) n =
        (entryAddrs size start n).map (base + ·) := by
      rw [entryAddrs, entryAddrs, List.map_map]
      exact List.map_congr_left fun i _ => Nat.add_assoc ..
    rw [Nat.mod_eq_of_lt (by omega), tableLoop_eq hpos each hfuel (by omega) m (by omega), haddrs,
      pass_map]

/-- **The two loops.** -/
theorem loops_eq (hw : prog.WellLinked) (htop : base + prog.size < 2 ^ 64)
    (hload : prog.LoadedAt base m) {fuel : Nat} (hfuel : prog.rounds ≤ fuel) :
    (tableLoop 16 (applyRel base) fuel ((base + prog.dyn dtRel) % 2 ^ 64) (prog.dyn dtRelsz) m).bind
        (tableLoop 24 (applyRela base) fuel ((base + prog.dyn dtRela) % 2 ^ 64)
          (prog.dyn dtRelasz)) =
      some (m.writes (prog.pointers.map (Pointer.store base))) := by
  unfold LinkImage.rounds at hfuel
  rw [tableLoop_entries htop (by decide) hw.rel_whole
    (fun i hlo hhi => hw.tables i (.inl ⟨hlo, hhi⟩)) _ (by omega), Option.bind_some,
    tableLoop_entries htop (by decide) hw.rela_whole
    (fun i hlo hhi => hw.tables i (.inr ⟨hlo, hhi⟩)) _ (by omega),
    ← pass_entries hw (Nat.le_of_lt htop) hload, LinkImage.entries, pass_append, pass_map, pass_map]
  rfl

end Entries

/-! ## The base and the dynamic section -/

section Start

variable {File : Type} {prog : LinkImage} {exec : ElfImage File} {m : Image} {base : Nat}

theorem scanDyn_eq (hw : prog.WellLinked) (hload : prog.LoadedAt base m) {fuel : Nat}
    (hfuel : prog.rounds < fuel) : scanDyn m fuel (base + prog.dynamic) = some prog.dyn := by
  have htop := hw.dynamic_top
  unfold LinkImage.rounds at hfuel
  refine Loader.scanAux_eq (by omega) (fun i e he => ?_) hw.tags ?_
  · have hi := (List.getElem?_eq_some_iff.mp he).1
    rw [← (hw.dyns i e he).1, ← (hw.dyns i e he).2, Nat.add_assoc, Nat.add_assoc,
      hload.word (by omega), hload.word (by omega), Nat.add_assoc]
    exact ⟨rfl, rfl⟩
  · rw [Nat.add_assoc, hload.word (by omega)]
    exact hw.null

/-- The loop over the program headers finds the base. -/
theorem findDynamic_eq (hload : prog.LoadedAt base m) (hbase : base < 2 ^ 64)
    {phdrs : List ElfPhdr} {ph : ElfPhdr} {off : Nat}
    (hfit : base + off + 56 * phdrs.length < 2 ^ 64) (hin : off + 56 * phdrs.length ≤ prog.size)
    (hheaders : ∀ i p, phdrs[i]? = some p →
      leNat (prog.bytes.read (off + 56 * i) 4) = p.pType.toNat ∧
        prog.bytes.word (off + 56 * i + 16) = p.pVaddr.toNat)
    (hfind : phdrs.find? (fun p => p.pType.toNat = ptDynamic) = some ph) :
    findDynamic m (base + ph.pVaddr.toNat) 56 phdrs.length (base + off) = some base := by
  induction phdrs generalizing off with
  | nil => cases hfind
  | cons p phdrs ih =>
    obtain ⟨htype, hvaddr⟩ := hheaders 0 p rfl
    rw [List.length_cons] at hfit hin ⊢
    have hread : m.read (base + off) 4 = prog.bytes.read off 4 := Image.read_congr fun i hi => by
      rw [Nat.add_assoc]
      exact hload _ (by omega)
    rw [Nat.mul_zero, Nat.add_zero] at htype hvaddr
    rw [findDynamic, hread, htype, Nat.add_assoc base off 16, hload.word (by omega), hvaddr]
    by_cases hp : p.pType.toNat = ptDynamic
    · rw [List.find?_cons_of_pos (by simpa using hp)] at hfind
      obtain rfl := Option.some.inj hfind
      have hlt := p.pVaddr.toNat_lt
      rw [if_pos hp]
      congr 1
      omega
    · rw [List.find?_cons_of_neg (by simpa using hp)] at hfind
      rw [if_neg hp, Nat.mod_eq_of_lt (by omega), Nat.add_assoc]
      refine ih (by omega) (by omega) (fun i q hi => ?_) hfind
      have h := hheaders (i + 1) q hi
      rw [show off + 56 * (i + 1) = off + 56 + 56 * i by omega] at h
      exact h

theorem loadBase_eq {setup : LoadSetup} {loadAddr : UInt64} {argv envs : List (List UInt8)}
    {p : ProcEntry} {st : Loader.Started} (hd : prog.Describes exec)
    (htop : loadAddr.toNat + prog.size < 2 ^ 64) (hload : prog.LoadedAt loadAddr.toNat m)
    (hreads : Loader.Reads setup exec loadAddr 0 argv envs m p st) :
    loadBase m st (loadAddr.toNat + prog.dynamic) = loadAddr.toNat := by
  obtain ⟨ph, hfind, hdyn⟩ := hd.dynamic
  have hin := hd.top
  have hphoff : (loadAddr + exec.ePhoff).toNat = loadAddr.toNat + exec.ePhoff.toNat := by
    rw [UInt64.toNat_add, Nat.mod_eq_of_lt (by omega)]
  have hphnum : (UInt64.ofNat exec.phdrs.length).toNat = exec.phdrs.length :=
    Loader.toNat_ofNat_lt (by omega)
  rw [loadBase, hreads.base, if_pos UInt64.toNat_zero, hreads.phent, hreads.phnum, hreads.phdr,
    hphnum, hphoff, ← hdyn]
  have h := findDynamic_eq hload (UInt64.toNat_lt _) (by omega) hin hd.headers hfind
  exact congrArg (Option.getD · 0) h

/-- **The monitor relocates itself to where the kernel has loaded it.**  Entered for the first
time, on the stack that the kernel has built, `_start_c` gets through its loops; then every
pointer the tables list is moved by the base, the rest of the program is as in the file, and
nothing else is changed. -/
theorem startRelocated_rebased {setup : LoadSetup} {loadAddr : UInt64}
    {argv envs : List (List UInt8)} {p : ProcEntry} (hw : prog.WellLinked)
    (hd : prog.Describes exec) (htop : loadAddr.toNat + prog.size < 2 ^ 64)
    (hload : prog.LoadedAt loadAddr.toNat m)
    (hstack : Loader.Decoded setup exec loadAddr 0 argv envs m p) :
    ∃ m', (∀ fuel, prog.rounds + envs.length + 10 < fuel →
        startRelocated fuel m p.stackAddr.toNat (loadAddr.toNat + prog.dynamic)
          (loadAddr.toNat + prog.info) = some m') ∧
      prog.Rebased loadAddr.toNat m' ∧
      ∀ i, i < loadAddr.toNat ∨ loadAddr.toNat + prog.size ≤ i → m' i = m i := by
  obtain ⟨st, hst, hreads⟩ := hstack.reads
  obtain ⟨hrebased, hframe⟩ := rebased_writes hw hload
  refine ⟨_, fun fuel hfuel => ?_, hrebased, hframe⟩
  have hinfo : m.word (loadAddr.toNat + prog.info) = 0 := by
    rw [hload.word hw.info_top]
    exact hw.fresh
  rw [startRelocated, if_neg (by rw [hinfo]; exact fun h => h rfl), hst fuel (by omega),
    scanDyn_eq hw hload (by omega)]
  have hbase := loadBase_eq hd htop hload hreads
  simp only [Option.bind_eq_bind, Option.bind_some, hbase]
  exact loops_eq hw htop hload (by omega)

end Start

/-! A program of thirty-six words: two program headers, `__info`, the dynamic section, a `REL`
table of one entry, a `RELA` table of a relative entry and one for a symbol, the two pointers the
relative entries list, and the word of the third, which is left alone. -/

def tinyWords : List Nat :=
  [1, 0, 0, 0, 0, 0, 0] ++ [2, 0, 120, 0, 0, 0, 0] ++ [0] ++
    [17, 200, 18, 16, 7, 216, 8, 48, 0, 0] ++ [264, 8] ++ [272, 8, 112, 280, 6, 5] ++ [120, 0, 7]

def tinyProgram : LinkImage where
  bytes := Image.write (fun _ => 0) ⟨0, Image.wordBytes tinyWords⟩
  size := 288
  dynamic := 120
  dyns := [(17, 200), (18, 16), (7, 216), (8, 48)]
  info := 112

def tinyImage : ElfImage Unit := ⟨(), etDyn, 0, 0, [⟨1, 0, 0, 0, 0, 0⟩, ⟨2, 0, 0, 120, 0, 0⟩]⟩

theorem tinyStack_lt : (0x100000 : UInt64).toNat < 2 ^ 31 := by decide

theorem tinyRand_length : (List.replicate 16 (7 : UInt8)).length = 16 := rfl

def tinySetup : LoadSetup :=
  ⟨0x100000, List.replicate 16 7, 0, 0x1000, 0x1000, tinyRand_length, tinyStack_lt⟩

/-- A task with this program at 64 KiB. -/
def tinyState : LoadState Unit where
  sys :=
    { space :=
        { mmap := [⟨0x10000, 0x11000, none, ⟨true, true, true⟩, .application⟩]
          mem := Image.write (fun _ => 0) ⟨0x10000, Image.wordBytes tinyWords⟩ }
      log := []
      underflow := false }
  p := ⟨0x5000, 100, 1, -1, 0, 0, 0, .nodOut, NodStackInfo.zero⟩

/-- The kernel has built the stack. -/
def tinyStart : LoadState Unit :=
  (Loader.createElfTbls (roomyKern fun _ => []) tinySetup tinyImage 0x10000 0 [[47, 109]]
    tinyState).2

theorem tinyProgram_pointers : tinyProgram.pointers = [⟨264, 120⟩, ⟨272, 112⟩] := by
  decide +kernel

theorem tinyProgram_inTables {i : Nat} (h : tinyProgram.InTables i) : 200 ≤ i ∧ i < 264 := by
  have h0 : tinyProgram.dyn dtRel = 200 := by decide +kernel
  have h1 : tinyProgram.dyn dtRelsz = 16 := by decide +kernel
  have h2 : tinyProgram.dyn dtRela = 216 := by decide +kernel
  have h3 : tinyProgram.dyn dtRelasz = 48 := by decide +kernel
  rw [LinkImage.InTables, h0, h1, h2, h3] at h
  omega

theorem tinyProgram_dyns : ∀ i < 4, tinyProgram.dyns[i]? =
    some (tinyProgram.bytes.word (tinyProgram.dynamic + 16 * i),
      tinyProgram.bytes.word (tinyProgram.dynamic + 16 * i + 8)) := by
  decide +kernel

theorem tinyProgram_wellLinked : tinyProgram.WellLinked where
  dyns i e h := by
    have hi := tinyProgram_dyns i (List.getElem?_eq_some_iff.mp h).1
    obtain rfl := Option.some.inj (hi.symm.trans h)
    exact ⟨rfl, rfl⟩
  tags := by decide
  null := by decide +kernel
  dynamic_top := by decide
  rel_whole := by decide +kernel
  rela_whole := by decide +kernel
  tables i h := by
    have := tinyProgram_inTables h
    show i < 288
    omega
  inside := by decide +kernel
  apart := by decide +kernel
  outside p hp i h := by
    have := tinyProgram_inTables h
    rw [tinyProgram_pointers] at hp
    rcases List.mem_pair.mp hp with rfl | rfl
    · show i < 264 ∨ _
      omega
    · show i < 272 ∨ _
      omega
  info_top := by decide
  fresh := by decide +kernel

theorem tinyProgram_describes : tinyProgram.Describes tinyImage where
  top := by decide
  headers i ph h := by
    match i, h with
    | 0, h =>
      obtain rfl := Option.some.inj h
      decide +kernel
    | 1, h =>
      obtain rfl := Option.some.inj h
      decide +kernel
  dynamic := ⟨_, rfl, by decide⟩

theorem tinyStart_decoded : Loader.Decoded tinySetup tinyImage 0x10000 0 [[47, 109]] []
    tinyStart.sys.space.mem tinyStart.p := by
  have hsorted : Sorted tinyState.sys.space.mmap := ⟨by decide, by decide⟩
  have henv : Loader.EnvBlock tinyState.sys.space.mem tinySetup.envStart tinySetup.envEnd [] :=
    ⟨rfl, rfl, fun _ h => absurd h List.not_mem_nil, fun _ h => absurd h List.not_mem_nil⟩
  have hres : (Loader.createElfTbls (roomyKern fun _ => []) tinySetup tinyImage 0x10000 0
      [[47, 109]] tinyState).1 = .ok () := by decide +kernel
  exact Loader.createElfTbls_ok (roomyKern_maps _) (Loader.roomyKern_measures _) hsorted
    (by decide) henv (fun x hlo hhi => absurd (Nat.lt_of_le_of_lt hlo hhi) (Nat.lt_irrefl _))
    (fun h => absurd rfl h) (by decide) (Prod.ext hres rfl)

theorem startRelocated_tiny :
    ∃ m', (∀ fuel, tinyProgram.rounds + 0 + 10 < fuel →
        startRelocated fuel tinyStart.sys.space.mem tinyStart.p.stackAddr.toNat
          (0x10000 + tinyProgram.dynamic) (0x10000 + tinyProgram.info) = some m') ∧
      tinyProgram.Rebased 0x10000 m' ∧
      ∀ i, i < 0x10000 ∨ 0x10000 + tinyProgram.size ≤ i → m' i = tinyStart.sys.space.mem i :=
  startRelocated_rebased tinyProgram_wellLinked tinyProgram_describes (by decide)
    (by unfold LinkImage.LoadedAt; decide +kernel) tinyStart_decoded

end Startup

end NoDrop
