import NoDrop.Loader

/-! # Making the monitor's stack

What the steps of `create_elf_tbls` do.  The stack is a new mapping, so that what was mapped
before is left alone (`createStack_grows`); on it the steps store bytes one after the other, and
two stores side by side are one (`Wrote.append`, `Wrote.append_below`).
-/
namespace NoDrop

open Areas Bytes

namespace Loader

/-! ## The stack is new -/

section Stack

variable {File : Type} {k : Kern File} {s s' : Sys File}

/-- What was mapped is mapped as before, with the same bytes. -/
def Grows (s s' : Sys File) : Prop :=
  ∀ x, lookup s.space.mmap x ≠ none →
    lookup s'.space.mmap x = lookup s.space.mmap x ∧ s'.space.mem x = s.space.mem x

theorem Grows.refl (s : Sys File) : Grows s s := fun _ _ => ⟨rfl, rfl⟩

theorem Grows.trans {s'' : Sys File} (h : Grows s s') (h' : Grows s' s'') : Grows s s'' := by
  intro x hx
  obtain ⟨hl, hm⟩ := h x hx
  obtain ⟨hl', hm'⟩ := h' x (by rwa [hl])
  exact ⟨hl'.trans hl, hm'.trans hm⟩

/-- `vm_mmap` without `MAP_FIXED` leaves alone what is mapped. -/
theorem vmMmap_new (hk : k.Maps) (hs : Sorted s.space.mmap) (owner : Owner File)
    (file : Option File) (addr len : UInt64) (prot : Prot) (off : UInt64) :
    ∃ v s', s.vmMmap k owner file addr len prot false off = (v, s') ∧ Sorted s'.space.mmap ∧
      Grows s s' ∧ (BadAddr v → s'.space = s.space) ∧
      (¬BadAddr v → len ≠ 0 ∧ v.toNat % pageSize = 0 ∧
        v.toNat + pageAlign len.toNat ≤ taskSize ∧ s.space.Free v.toNat (pageAlign len.toNat) ∧
        ∀ x, lookup s'.space.mmap x =
          if v.toNat ≤ x ∧ x < v.toNat + pageAlign len.toNat then some ⟨file, prot, owner⟩
          else lookup s.space.mmap x) := by
  rcases Sys.vmMmap_cases k owner file addr len prot false off s with ⟨hbad, heq⟩ | ⟨hgood, heq⟩
  · exact ⟨_, _, heq, hs, .refl s, fun _ => rfl, fun hn => absurd hbad hn⟩
  · obtain ⟨hlen, -, hnew⟩ := hk.mmap _ _ _ _ _ _ _ _ rfl hgood
    obtain ⟨hmod, htop, hfree⟩ := hnew rfl
    have hpos : 0 < pageAlign len.toNat := by
      have h0 : len.toNat ≠ 0 := fun h0 => hlen (UInt64.toNat_inj.mp h0)
      have h1 := le_pageAlign len.toNat
      omega
    have hlookup := fun x => Sys.lookup_mapArea (k := k)
      (s := s.note (.vmMmap file addr len prot false off)
        (k.answer s (.vmMmap file addr len prot false off))) hs hpos
      (k.answer s (.vmMmap file addr len prot false off)).toNat ⟨file, prot, owner⟩ off.toNat x
    refine ⟨_, _, heq, Sys.sorted_mapArea hs hpos _ _ _, ?_, (fun hb => absurd hb hgood),
      fun _ => ⟨hlen, hmod, htop, hfree, hlookup⟩⟩
    intro x hx
    have hout := fun hin : _ ∧ _ => hx (hfree x hin.1 hin.2)
    exact ⟨(hlookup x).trans (if_neg hout), if_neg hout⟩

/-- What is given back between the red zones lies in the new mapping. -/
theorem lookup_vmMunmap_redZone {b size : UInt64} (hs : Sorted s.space.mmap)
    (htop : b.toNat + pageAlign (size + 4096 + 4096).toNat ≤ taskSize) {x : Nat}
    (hx : ¬(b.toNat ≤ x ∧ x < b.toNat + pageAlign (size + 4096 + 4096).toNat)) :
    lookup (s.vmMunmap (b + 4096) size).space.mmap x = lookup s.space.mmap x := by
  have hpage : (4096 : UInt64).toNat = 4096 := rfl
  have hsize := size.toNat_lt
  by_cases hwrap : size.toNat + 8192 < 2 ^ 64
  · have hlen : (size + 4096 + 4096).toNat = size.toNat + 8192 := by
      rw [UInt64.toNat_add, UInt64.toNat_add, hpage]
      omega
    rw [hlen] at htop hx
    have haddr : (b + 4096).toNat = b.toNat + 4096 := by
      rw [UInt64.toNat_add, hpage]
      unfold taskSize at htop
      omega
    refine Sys.lookup_vmMunmap_of_outside hs ?_
    rw [haddr]
    unfold pageAlign pageSize at *
    omega
  · -- the range does not fit into user space
    have hbig : taskSize < (b + 4096).toNat + pageAlign size.toNat := by
      have hle := le_pageAlign size.toNat
      unfold taskSize
      omega
    unfold Sys.vmMunmap
    rw [if_pos (.inr (.inr hbig))]

/-- **The stack is new**: what was mapped before is left alone. -/
theorem createStack_cases (hk : k.Maps) (hs : Sorted s.space.mmap) (addr size : UInt64) :
    ∃ v s', createStackWithRedZone k addr size s = (v, s') ∧ Sorted s'.space.mmap ∧ Grows s s' ∧
      (¬BadAddr v → size ≠ 0 ∧ v.toNat + pageAlign size.toNat ≤ taskSize ∧
        s.space.Free v.toNat (pageAlign size.toNat) ∧
        ∀ x, v.toNat ≤ x → x < v.toNat + pageAlign size.toNat →
          lookup s'.space.mmap x = some ⟨none, ⟨true, true, false⟩, .stack⟩) := by
  unfold createStackWithRedZone
  dsimp only
  obtain ⟨b, s₁, hmap, hs₁, hgrow, hbad, hgood⟩ := vmMmap_new hk hs .stack none
    (if addr > 4096 then addr - 4096 else addr) (size + 4096 + 4096) ⟨false, false, false⟩ 0
  rw [hmap]
  dsimp only
  split
  · rename_i hb
    exact ⟨b, s₁, rfl, hs₁, hgrow, fun hn => absurd hb hn⟩
  rename_i hb
  obtain ⟨-, -, htop, hfree, -⟩ := hgood hb
  have hs₂ : Sorted (s₁.vmMunmap (b + 4096) size).space.mmap :=
    Sys.sorted_vmMunmap hs₁ (b + 4096) size
  have hgrow₂ : Grows s (s₁.vmMunmap (b + 4096) size) := by
    intro x hx
    obtain ⟨hl, hm⟩ := hgrow x hx
    refine ⟨(lookup_vmMunmap_redZone hs₁ htop ?_).trans hl,
      (congrFun (Sys.vmMunmap_mem s₁ (b + 4096) size) x).trans hm⟩
    exact fun hin => hx (hfree x hin.1 hin.2)
  obtain ⟨v, s₃, hmap₃, hs₃, hgrow₃, -, hgood₃⟩ :=
    vmMmap_new hk hs₂ .stack none (b + 4096) size ⟨true, true, false⟩ 0
  refine ⟨v, s₃, hmap₃, hs₃, hgrow₂.trans hgrow₃, ?_⟩
  intro hn
  obtain ⟨hsize, -, htop₃, hfree₃, hlookup₃⟩ := hgood₃ hn
  refine ⟨hsize, htop₃, ?_, fun x hlo hhi => (hlookup₃ x).trans (if_pos ⟨hlo, hhi⟩)⟩
  intro x hlo hhi
  by_contra hx
  have hnone := hfree₃ x hlo hhi
  rw [(hgrow₂ x hx).1] at hnone
  exact hx hnone

end Stack

/-! ## Storing -/

section Store

variable {File : Type} {k : Kern File} {t t' t'' : LoadState File}

/-- The bytes were stored at `a`, and nothing else was done but calls of the kernel. -/
structure Wrote (a : Nat) (data : List UInt8) (t t' : LoadState File) : Prop where
  mem : t'.sys.space.mem = t.sys.space.mem.write ⟨a, data⟩
  mmap : t'.sys.space.mmap = t.sys.space.mmap
  p : t'.p = t.p

/-- Elsewhere the memory is as before. -/
theorem write_outside {m : Image} {a x : Nat} {data : List UInt8}
    (h : x < a ∨ a + data.length ≤ x) : m.write ⟨a, data⟩ x = m x := by
  refine Image.write_of_not_touches ?_
  rintro ⟨h1, h2⟩
  unfold Write.stop at h2
  dsimp only at h1 h2
  omega

namespace Wrote

variable {a : Nat} {xs ys : List UInt8}

theorem nil (a : Nat) (t : LoadState File) : Wrote a [] t t := by
  refine ⟨?_, rfl, rfl⟩
  funext i
  refine (Image.write_of_not_touches ?_).symm
  rintro ⟨h1, h2⟩
  exact absurd h2 (Nat.not_lt.mpr h1)

theorem append (h : Wrote a xs t t') (h' : Wrote (a + xs.length) ys t' t'') :
    Wrote a (xs ++ ys) t t'' := by
  refine ⟨?_, h'.mmap.trans h.mmap, h'.p.trans h.p⟩
  rw [h'.mem, h.mem, Image.write_append]

theorem append_below (h : Wrote (a + xs.length) ys t t') (h' : Wrote a xs t' t'') :
    Wrote a (xs ++ ys) t t'' := by
  refine ⟨?_, h'.mmap.trans h.mmap, h'.p.trans h.p⟩
  rw [h'.mem, h.mem, Image.write_append_below]

end Wrote

theorem gotoIf_ok {cond : Prop} [Decidable cond] {err : Int} {u : Unit} :
    (LoadStep.gotoIf cond err : LoadStep File Unit) t = (.ok u, t') ↔ ¬cond ∧ t' = t := by
  unfold LoadStep.gotoIf
  by_cases hc : cond
  · rw [if_pos hc]
    simp [Fallible.fail, hc]
  · rw [if_neg hc]
    simp [Fallible.pure_apply, hc, eq_comm]

theorem copyToUser_ok {addr : UInt64} {data : List UInt8} {u : Unit}
    (h : LoadStep.copyToUser k addr data t = (.ok u, t')) : Wrote addr.toNat data t t' := by
  obtain ⟨left, t₁, hcall, hgoto⟩ := Fallible.bind_ok_iff.mp h
  obtain ⟨hz, rfl⟩ := gotoIf_ok.mp hgoto
  cases hcall
  have hleft := not_not.mp hz
  refine ⟨?_, rfl, rfl⟩
  show t.sys.space.mem.write ⟨addr.toNat, data.take _⟩ = _
  have hret : (k.answer t.sys (.copyToUser addr data.length)).toNat = 0 := by
    rw [show k.answer t.sys (.copyToUser addr data.length) = 0 from hleft]
    rfl
  rw [hret, Nat.sub_zero, List.take_length]

theorem putUser_ok {addr v : UInt64} {u : Unit}
    (h : LoadStep.putUser k addr v t = (.ok u, t')) :
    Wrote addr.toNat (leBytes 8 v.toNat) t t' := by
  obtain ⟨err, t₁, hcall, hgoto⟩ := Fallible.bind_ok_iff.mp h
  obtain ⟨hz, rfl⟩ := gotoIf_ok.mp hgoto
  have herr := not_not.mp hz
  have hsplit : ∀ s : Sys File, (s.putUser k addr v).1 = 0 →
      (s.putUser k addr v).2 = (s.note (.putUser addr) 0).store addr.toNat (leBytes 8 v.toNat) := by
    intro s hs
    unfold Sys.putUser at hs ⊢
    dsimp only at hs ⊢
    split at hs
    · rename_i hne
      exact absurd hs hne
    · rename_i hne
      rw [if_neg hne, not_not.mp hne]
  cases hcall
  have hsys := hsplit t.sys herr
  refine ⟨?_, ?_, rfl⟩
  · show (t.sys.putUser k addr v).2.space.mem = _
    rw [hsys]
    rfl
  · show (t.sys.putUser k addr v).2.space.mmap = _
    rw [hsys]
    rfl

end Store

/-! ## What every step has, `create_elf_tbls` has -/

section Steps

variable {File : Type} {k : Kern File} {Q : ∀ α : Type, LoadStep File α → Prop}

/-- A property of the steps of `create_elf_tbls` that sequences inherit. -/
structure Steps (k : Kern File) (Q : ∀ α : Type, LoadStep File α → Prop) : Prop where
  pure : ∀ (α : Type) (a : α), Q α (Pure.pure a)
  bind : ∀ (α β : Type) (m : LoadStep File α) (f : α → LoadStep File β),
    Q α m → (∀ a, Q β (f a)) → Q β (m >>= f)
  assign : ∀ f, Q Unit (LoadStep.assign f)
  peek : ∀ (α : Type) (f : LoadState File → α), Q α (Fallible.lift fun t => (f t, t))
  copyToUser : ∀ addr data, Q Unit (LoadStep.copyToUser k addr data)
  putUser : ∀ addr v, Q Unit (LoadStep.putUser k addr v)
  traverseEnvEnt : ∀ start, Q UInt64 (LoadStep.traverseEnvEnt k start)
  stack : ∀ (β : Type) (addr size : UInt64) (g : UInt64 → LoadStep File β), (∀ p, Q β (g p)) →
    Q β (do
      let p ← LoadStep.call (createStackWithRedZone k addr size)
      LoadStep.gotoIf (BadAddr p) LoadStep.efault
      g p)
  vmalloc : ∀ (β : Type) (size : Nat) (g : LoadStep File β), Q β g →
    Q β (do
      let mem ← LoadStep.call (Sys.vmalloc k size)
      LoadStep.gotoIf (mem = 0) LoadStep.efault
      g)

namespace Steps

theorem pushArgs (h : Steps k Q) (args : List (List UInt8)) (p : UInt64) :
    Q UInt64 (Loader.pushArgs k args p) := by
  induction args generalizing p with
  | nil => exact h.pure _ p
  | cons arg args ih => exact h.bind _ _ _ _ (h.copyToUser _ _) fun _ => ih _

theorem putArgs (h : Steps k Q) (args : List (List UInt8)) (start sp : UInt64) :
    Q UInt64 (Loader.putArgs k args start sp) := by
  induction args generalizing start sp with
  | nil => exact h.pure _ sp
  | cons arg args ih => exact h.bind _ _ _ _ (h.putUser _ _) fun _ => ih _ _

theorem countEnv (h : Steps k Q) (stop : UInt64) (fuel : Nat) (start : UInt64) :
    Q Nat (Loader.countEnv k stop fuel start) := by
  induction fuel generalizing start with
  | zero => exact h.pure _ 0
  | succ fuel ih =>
    rw [Loader.countEnv]
    split
    · refine h.bind _ _ _ _ (h.traverseEnvEnt start) fun len => ?_
      exact h.bind _ _ _ _ (ih _) fun envc => h.pure _ _
    · exact h.pure _ 0

theorem putEnv (h : Steps k Q) (stop : UInt64) (fuel : Nat) (start sp : UInt64) :
    Q UInt64 (Loader.putEnv k stop fuel start sp) := by
  induction fuel generalizing start sp with
  | zero => exact h.pure _ sp
  | succ fuel ih =>
    rw [Loader.putEnv]
    split
    · refine h.bind _ _ _ _ (h.putUser _ _) fun _ => ?_
      exact h.bind _ _ _ _ (h.traverseEnvEnt start) fun len => ih _ _
    · exact h.pure _ sp

theorem fillStack (h : Steps k Q) (setup : LoadSetup) (argv : List (List UInt8)) :
    Q (UInt64 × UInt64) (Loader.fillStack k setup argv) := by
  refine h.stack _ 0 setup.stackSize _ fun p => ?_
  refine h.bind _ _ _ _ (h.assign _) fun _ => ?_
  refine h.bind _ _ _ _ (h.copyToUser _ _) fun _ => ?_
  refine h.bind _ _ _ _ (h.assign _) fun _ => ?_
  refine h.bind _ _ _ _ (h.peek _ _) fun info => ?_
  refine h.bind _ _ _ _ (h.copyToUser _ _) fun _ => ?_
  exact h.bind _ _ _ _ (h.pushArgs _ _) fun _ => h.pure _ _

theorem putTbls (h : Steps k Q) (setup : LoadSetup) (argv : List (List UInt8))
    (info : List UInt64) (argStart : UInt64) :
    Q Unit (Loader.putTbls k setup argv info argStart) := by
  refine h.bind _ _ _ _ (h.countEnv _ _ _) fun envc => ?_
  refine h.bind _ _ _ _ (h.assign _) fun _ => ?_
  refine h.bind _ _ _ _ (h.putUser _ _) fun _ => ?_
  refine h.bind _ _ _ _ (h.putArgs _ _ _) fun sp => ?_
  refine h.bind _ _ _ _ (h.peek _ _) fun infoAddr => ?_
  refine h.bind _ _ _ _ (h.putUser _ _) fun _ => ?_
  refine h.bind _ _ _ _ (h.putUser _ _) fun _ => ?_
  refine h.bind _ _ _ _ (h.putEnv _ _ _ _) fun sp => ?_
  exact h.bind _ _ _ _ (h.putUser _ _) fun _ => h.copyToUser _ _

/-- **What every step has, `create_elf_tbls` has.** -/
theorem createElfTbls (h : Steps k Q) (setup : LoadSetup) (exec : ElfImage File)
    (loadAddr interpLoadAddr : UInt64) (argv : List (List UInt8)) :
    Q Unit (Loader.createElfTbls k setup exec loadAddr interpLoadAddr argv) :=
  h.bind _ _ _ _ (h.fillStack setup argv) fun _ => h.vmalloc _ _ _ (h.putTbls _ _ _ _)

end Steps

end Steps

/-! ## Giving up -/

section Refusals

variable {File α β : Type} {k : Kern File}

/-- From `t` the step succeeds exactly if the kernel grants all the calls it makes. -/
def Answered (m : LoadStep File α) (t : LoadState File) : Prop :=
  ∃ ext, (m t).2.sys.log = t.sys.log ++ ext ∧
    ((∀ e ∈ ext, Granted e) ↔ ∃ a, (m t).1 = .ok a)

/-- The step succeeds exactly if the kernel grants all the calls it makes. -/
def OnlyRefusals (m : LoadStep File α) : Prop :=
  ∀ t, ∃ ext, (m t).2.sys.log = t.sys.log ++ ext ∧
    ((∀ e ∈ ext, Granted e) ↔ ∃ a, (m t).1 = .ok a)

namespace Answered

variable {t : LoadState File}

theorem bind {m : LoadStep File α} {f : α → LoadStep File β} (hm : Answered m t)
    (hf : ∀ a u, m t = (.ok a, u) → Answered (f a) u) : Answered (m >>= f) t := by
  obtain ⟨ext, hlog, hiff⟩ := hm
  rcases h : m t with ⟨r, t₁⟩
  rw [h] at hlog hiff
  unfold Answered
  cases r with
  | ok a =>
    rw [Fallible.bind_of_ok h]
    obtain ⟨ext', hlog', hiff'⟩ := hf a t₁ h
    refine ⟨ext ++ ext', ?_, ?_⟩
    · dsimp only at hlog
      rw [hlog', hlog, List.append_assoc]
    · have hgood : ∀ e ∈ ext, Granted e := hiff.mpr ⟨a, rfl⟩
      rw [← hiff']
      simp only [List.mem_append, or_imp, forall_and]
      exact and_iff_right hgood
  | error e =>
    rw [Fallible.bind_of_error h]
    refine ⟨ext, hlog, ?_⟩
    rw [hiff]
    constructor <;> rintro ⟨_, h⟩ <;> cases h

/-- Giving up if a call is refused. -/
theorem check {f : Sys File → UInt64 × Sys File} {bad : UInt64 → Prop} [DecidablePred bad]
    {err : UInt64 → Int}
    (hf : ∃ ext, (f t.sys).2.log = t.sys.log ++ ext ∧
      ((∀ e ∈ ext, Granted e) ↔ ¬bad (f t.sys).1)) :
    Answered (do
      let ret ← LoadStep.call f
      LoadStep.gotoIf (bad ret) (err ret)) t := by
  obtain ⟨ext, hlog, hiff⟩ := hf
  have hcall : (LoadStep.call f : LoadStep File UInt64) t =
      (.ok (f t.sys).1, { t with sys := (f t.sys).2 }) := rfl
  unfold Answered
  rw [Fallible.bind_of_ok hcall]
  refine ⟨ext, ?_, ?_⟩
  · unfold LoadStep.gotoIf
    split <;> exact hlog
  · rw [hiff]
    unfold LoadStep.gotoIf
    split
    · rename_i hb
      exact ⟨fun h => absurd hb h, fun ⟨_, h⟩ => by cases h⟩
    · rename_i hb
      exact ⟨fun _ => ⟨(), rfl⟩, fun _ => hb⟩

/-- Giving up if a call is refused, and going on with its result. -/
theorem checkThen {f : Sys File → UInt64 × Sys File} {bad : UInt64 → Prop} [DecidablePred bad]
    {err : UInt64 → Int} {g : UInt64 → LoadStep File β}
    (hf : ∃ ext, (f t.sys).2.log = t.sys.log ++ ext ∧
      ((∀ e ∈ ext, Granted e) ↔ ¬bad (f t.sys).1))
    (hg : ∀ ret, OnlyRefusals (g ret)) :
    Answered (do
      let ret ← LoadStep.call f
      LoadStep.gotoIf (bad ret) (err ret)
      g ret) t := by
  have hcall : (LoadStep.call f : LoadStep File UInt64) t =
      (.ok (f t.sys).1, { t with sys := (f t.sys).2 }) := rfl
  have hcheck : Answered (do
      let ret ← LoadStep.call f
      LoadStep.gotoIf (bad ret) (err ret)) t := check hf
  have hseq := hcheck.bind (fun _ u _ => hg (f t.sys).1 u)
  unfold Answered at hseq ⊢
  rw [Fallible.bind_assoc, Fallible.bind_of_ok hcall] at hseq
  rw [Fallible.bind_of_ok hcall]
  exact hseq

end Answered

namespace OnlyRefusals

theorem bind {m : LoadStep File α} {f : α → LoadStep File β} (hm : OnlyRefusals m)
    (hf : ∀ a, OnlyRefusals (f a)) : OnlyRefusals (m >>= f) :=
  fun t => Answered.bind (hm t) fun a u _ => hf a u

theorem pure (a : α) : OnlyRefusals (Pure.pure a : LoadStep File α) := by
  intro t
  exact ⟨[], (List.append_nil _).symm, fun _ => ⟨a, rfl⟩, fun _ e he => by cases he⟩

theorem assign (f : ProcEntry → ProcEntry) :
    OnlyRefusals (LoadStep.assign f : LoadStep File Unit) := by
  intro t
  exact ⟨[], (List.append_nil _).symm, fun _ => ⟨(), rfl⟩, fun _ e he => by cases he⟩

theorem peek (f : LoadState File → α) :
    OnlyRefusals (Fallible.lift fun t => (f t, t) : LoadStep File α) := by
  intro t
  exact ⟨[], (List.append_nil _).symm, fun _ => ⟨f t, rfl⟩, fun _ e he => by cases he⟩

theorem check {f : Sys File → UInt64 × Sys File} {bad : UInt64 → Prop} [DecidablePred bad]
    {err : UInt64 → Int}
    (hf : ∀ s, ∃ ext, (f s).2.log = s.log ++ ext ∧ ((∀ e ∈ ext, Granted e) ↔ ¬bad (f s).1)) :
    OnlyRefusals (do
      let ret ← LoadStep.call f
      LoadStep.gotoIf (bad ret) (err ret)) :=
  fun t => Answered.check (hf t.sys)

theorem checkThen {f : Sys File → UInt64 × Sys File} {bad : UInt64 → Prop} [DecidablePred bad]
    {err : UInt64 → Int} {g : UInt64 → LoadStep File β}
    (hf : ∀ s, ∃ ext, (f s).2.log = s.log ++ ext ∧ ((∀ e ∈ ext, Granted e) ↔ ¬bad (f s).1))
    (hg : ∀ ret, OnlyRefusals (g ret)) :
    OnlyRefusals (do
      let ret ← LoadStep.call f
      LoadStep.gotoIf (bad ret) (err ret)
      g ret) :=
  fun t => Answered.checkThen (hf t.sys) hg

theorem copyToUser (addr : UInt64) (data : List UInt8) :
    OnlyRefusals (LoadStep.copyToUser k addr data) := by
  refine check fun s => ⟨[(.copyToUser addr data.length, _)], rfl, ?_⟩
  rw [List.forall_mem_singleton]
  exact not_not.symm

theorem putUser (addr v : UInt64) : OnlyRefusals (LoadStep.putUser k addr v) := by
  refine check fun s => ⟨[(.putUser addr, (s.putUser k addr v).1)], ?_, ?_⟩
  · unfold Sys.putUser
    dsimp only
    split <;> rfl
  · rw [List.forall_mem_singleton]
    exact not_not.symm

theorem traverseEnvEnt (start : UInt64) : OnlyRefusals (LoadStep.traverseEnvEnt k start) := by
  refine checkThen (fun s => ⟨[(.strnlenUser start maxArgStrlen, _)], rfl, ?_⟩) fun ret => pure ret
  rw [List.forall_mem_singleton]
  exact Iff.rfl

/-- The stack is made, or one of its two mappings was refused. -/
theorem createStack_log (addr size : UInt64) (s : Sys File) :
    ∃ ext, (createStackWithRedZone k addr size s).2.log = s.log ++ ext ∧
      ((∀ e ∈ ext, Granted e) ↔ ¬BadAddr (createStackWithRedZone k addr size s).1) := by
  unfold createStackWithRedZone
  dsimp only
  have hlog := Sys.vmMmap_log (k := k) .stack none (if addr > 4096 then addr - 4096 else addr)
    (size + 4096 + 4096) ⟨false, false, false⟩ false 0 s
  rcases hmap : s.vmMmap k .stack none (if addr > 4096 then addr - 4096 else addr)
    (size + 4096 + 4096) ⟨false, false, false⟩ false 0 with ⟨b, s₁⟩
  rw [hmap] at hlog
  dsimp only at hlog ⊢
  split
  · rename_i hb
    refine ⟨_, hlog, ?_⟩
    rw [List.forall_mem_singleton]
    exact Iff.rfl
  · rename_i hb
    have hlog' := Sys.vmMmap_log (k := k) .stack none (b + 4096) size ⟨true, true, false⟩ false 0
      (s₁.vmMunmap (b + 4096) size)
    rw [Sys.vmMunmap_log, hlog, List.append_assoc] at hlog'
    refine ⟨_, hlog', ?_⟩
    rw [List.forall_mem_append, List.forall_mem_singleton, List.forall_mem_singleton]
    exact and_iff_right hb

theorem steps (k : Kern File) : Steps k fun _ m => OnlyRefusals m where
  pure _ a := pure a
  bind _ _ _ _ hm hf := hm.bind hf
  assign := assign
  peek _ f := peek f
  copyToUser := copyToUser
  putUser := putUser
  traverseEnvEnt := traverseEnvEnt
  stack _ addr size _ hg := checkThen (createStack_log addr size) hg
  vmalloc _ size g hg := by
    refine checkThen (fun s => ⟨[(.vmalloc size, _)], rfl, ?_⟩) fun _ => hg
    rw [List.forall_mem_singleton]
    exact Iff.rfl

/-- **`create_elf_tbls` fails only if the kernel refuses a call.** -/
theorem createElfTbls (setup : LoadSetup) (exec : ElfImage File)
    (loadAddr interpLoadAddr : UInt64) (argv : List (List UInt8)) :
    OnlyRefusals (Loader.createElfTbls k setup exec loadAddr interpLoadAddr argv) :=
  (steps k).createElfTbls setup exec loadAddr interpLoadAddr argv

end OnlyRefusals

end Refusals

/-! ## Strings -/

/-- The strings one after the other, each with its terminator. -/
def block (strs : List (List UInt8)) : List UInt8 := strs.flatMap fun str => str ++ [0]

theorem block_cons (str : List UInt8) (strs : List (List UInt8)) :
    block (str :: strs) = (str ++ [0]) ++ block strs := rfl

theorem block_append (strs strs' : List (List UInt8)) :
    block (strs ++ strs') = block strs ++ block strs' := List.flatMap_append ..

theorem block_cons_length (str : List UInt8) (strs : List (List UInt8)) :
    (block (str :: strs)).length = str.length + 1 + (block strs).length := by
  rw [block_cons, List.length_append, List.length_append]
  rfl

/-- The addresses of the strings of a block at `start`. -/
def ptrs : Nat → List (List UInt8) → List Nat
  | _, [] => []
  | start, str :: strs => start :: ptrs (start + (str.length + 1)) strs

theorem ptrs_length (start : Nat) (strs : List (List UInt8)) :
    (ptrs start strs).length = strs.length := by
  induction strs generalizing start with
  | nil => rfl
  | cons str strs ih => rw [ptrs, List.length_cons, List.length_cons, ih]

theorem ptrs_getElem? (start : Nat) (strs : List (List UInt8)) {i : Nat} (hi : i < strs.length) :
    (ptrs start strs)[i]? = some (start + (block (strs.take i)).length) := by
  induction strs generalizing start i with
  | nil => cases hi
  | cons str strs ih =>
    cases i with
    | zero => rfl
    | succ i =>
      rw [ptrs, List.getElem?_cons_succ, ih _ (Nat.lt_of_succ_lt_succ hi), List.take_succ_cons,
        block_cons_length, Nat.add_assoc]

/-- The addresses lie before the end of the block. -/
theorem lt_of_mem_ptrs {start q : Nat} {strs : List (List UInt8)} (h : q ∈ ptrs start strs) :
    start ≤ q ∧ q < start + (block strs).length := by
  induction strs generalizing start with
  | nil => cases h
  | cons str strs ih =>
    rw [block_cons_length]
    rcases List.mem_cons.mp h with rfl | h
    · omega
    · obtain ⟨h1, h2⟩ := ih h
      omega

/-- A C string at `a`. -/
structure CString (m : Image) (a : Nat) (str : List UInt8) : Prop where
  bytes : m.read a (str.length + 1) = str ++ [0]
  noNul : 0 ∉ str

/-- The strings of a block in memory. -/
theorem CString.of_block {m : Image} {a : Nat} {strs : List (List UInt8)}
    (hread : m.read a (block strs).length = block strs) (hnul : ∀ str ∈ strs, 0 ∉ str) {i : Nat}
    (hi : i < strs.length) : CString m (a + (block (strs.take i)).length) strs[i] := by
  refine ⟨?_, hnul _ (List.getElem_mem hi)⟩
  have hsplit : block strs =
      block (strs.take i) ++ ((strs[i] ++ [0]) ++ block (strs.drop (i + 1))) := by
    rw [← block_cons, ← block_append, List.cons_getElem_drop_succ, List.take_append_drop]
  have hlen : strs[i].length + 1 = (strs[i] ++ [0]).length := by
    rw [List.length_append]
    rfl
  rw [hsplit, List.length_append, Image.read_add] at hread
  have hrest := List.append_inj_right hread (by rw [Image.read_length])
  rw [List.length_append, Image.read_add] at hrest
  rw [hlen]
  exact List.append_inj_left hrest (by rw [Image.read_length])

section Loops

variable {File : Type} {k : Kern File} {t t' : LoadState File}

theorem toNat_ofNat_lt {n : Nat} (h : n < 2 ^ 64) : (UInt64.ofNat n).toNat = n :=
  UInt64.toNat_ofNat_of_lt' h

theorem toNat_add_lt {a b : UInt64} (h : a.toNat + b.toNat < 2 ^ 64) :
    (a + b).toNat = a.toNat + b.toNat := by
  rw [UInt64.toNat_add]
  exact Nat.mod_eq_of_lt h

theorem toNat_add_eight {a : UInt64} (h : a.toNat + 8 < 2 ^ 64) : (a + 8).toNat = a.toNat + 8 :=
  toNat_add_lt (b := 8) h

/-- The strings of `argv` are pushed below `p`. -/
theorem pushArgs_ok {args : List (List UInt8)} {p p' : UInt64}
    (h : pushArgs k args p t = (.ok p', t')) (hroom : (block args.reverse).length ≤ p.toNat) :
    p'.toNat + (block args.reverse).length = p.toNat ∧
      Wrote p'.toNat (block args.reverse) t t' := by
  -- on the strings that are left, with those already pushed above
  induction args generalizing p t with
  | nil =>
    cases h
    exact ⟨rfl, Wrote.nil _ _⟩
  | cons arg args ih =>
    rw [List.reverse_cons, block_append, List.length_append] at hroom ⊢
    have harg : (block [arg]).length = arg.length + 1 := block_cons_length arg []
    have hp := p.toNat_lt
    have hn : (UInt64.ofNat (arg.length + 1)).toNat = arg.length + 1 :=
      toNat_ofNat_lt (by omega)
    have hsub : (p - UInt64.ofNat (arg.length + 1)).toNat = p.toNat - (arg.length + 1) := by
      rw [UInt64.toNat_sub_of_le, hn]
      rw [UInt64.le_iff_toNat_le, hn]
      omega
    obtain ⟨u, t₁, hcopy, hrest⟩ := Fallible.bind_ok_iff.mp h
    obtain ⟨hp', hw⟩ := ih hrest (by omega)
    have hw₁ := copyToUser_ok hcopy
    refine ⟨by omega, Wrote.append_below ?_ hw⟩
    rw [hp', block_cons, block, List.flatMap_nil, List.append_nil]
    exact hw₁

/-- The pointers of `argv` are put from `sp` on. -/
theorem putArgs_ok {args : List (List UInt8)} {start sp sp' : UInt64}
    (h : putArgs k args start sp t = (.ok sp', t'))
    (hstart : start.toNat + (block args).length < 2 ^ 64)
    (hsp : sp.toNat + 8 * args.length < 2 ^ 64) :
    sp'.toNat = sp.toNat + 8 * args.length ∧
      Wrote sp.toNat (Image.wordBytes (ptrs start.toNat args)) t t' := by
  induction args generalizing start sp t with
  | nil =>
    cases h
    exact ⟨rfl, Wrote.nil _ _⟩
  | cons arg args ih =>
    rw [block_cons_length] at hstart
    rw [List.length_cons] at hsp ⊢
    have hn : (UInt64.ofNat (arg.length + 1)).toNat = arg.length + 1 :=
      toNat_ofNat_lt (by omega)
    have hnext : (start + UInt64.ofNat (arg.length + 1)).toNat =
        start.toNat + (arg.length + 1) := by
      rw [toNat_add_lt, hn]
      omega
    have height : (sp + 8).toNat = sp.toNat + 8 := toNat_add_eight (by omega)
    obtain ⟨u, t₁, hput, hrest⟩ := Fallible.bind_ok_iff.mp h
    obtain ⟨hsp', hw⟩ := ih hrest (by omega) (by omega)
    have hw₁ := putUser_ok hput
    refine ⟨by omega, hw₁.append ?_⟩
    rw [leBytes_length, ← height, ← hnext]
    exact hw

/-- The environment: NUL-terminated strings that fill the addresses from `start` up to
`stop`. -/
structure EnvBlock (m : Image) (start stop : UInt64) (strs : List (List UInt8)) : Prop where
  bytes : m.read start.toNat (block strs).length = block strs
  stop : start.toNat + (block strs).length = stop.toNat
  noNul : ∀ str ∈ strs, 0 ∉ str
  short : ∀ str ∈ strs, str.length < maxArgStrlen

theorem EnvBlock.first {m : Image} {start stop : UInt64} {str : List UInt8}
    {strs : List (List UInt8)} (h : EnvBlock m start stop (str :: strs)) :
    CString m start.toNat str :=
  CString.of_block h.bytes h.noNul (Nat.zero_lt_succ _)

theorem EnvBlock.tail {m : Image} {start stop : UInt64} {str : List UInt8}
    {strs : List (List UInt8)} (h : EnvBlock m start stop (str :: strs)) {len : UInt64}
    (hlen : len.toNat = str.length + 1) : EnvBlock m (start + len) stop strs := by
  have hstop := h.stop
  have hlt := stop.toNat_lt
  rw [block_cons_length] at hstop
  have hadd : (start + len).toNat = start.toNat + (str.length + 1) := by
    rw [toNat_add_lt, hlen]
    omega
  refine ⟨?_, by omega, fun s hs => h.noNul s (List.mem_cons_of_mem _ hs),
    fun s hs => h.short s (List.mem_cons_of_mem _ hs)⟩
  have hread := h.bytes
  rw [block_cons_length, Image.read_add, block_cons] at hread
  have hrest := List.append_inj_right hread (by rw [Image.read_length, List.length_append]; rfl)
  rw [hadd]
  exact hrest

theorem EnvBlock.congr {m m' : Image} {start stop : UInt64} {strs : List (List UInt8)}
    (h : EnvBlock m start stop strs)
    (heq : ∀ x, start.toNat ≤ x → x < stop.toNat → m' x = m x) : EnvBlock m' start stop strs := by
  refine ⟨?_, h.stop, h.noNul, h.short⟩
  rw [← h.bytes, Image.read_length]
  refine Image.read_congr fun i hi => heq _ (Nat.le_add_right ..) ?_
  rw [← h.stop]
  exact Nat.add_lt_add_left hi _

/-- Stores elsewhere leave the environment alone. -/
theorem EnvBlock.wrote {start stop : UInt64} {strs : List (List UInt8)} {a : Nat}
    {data : List UInt8} (h : EnvBlock t.sys.space.mem start stop strs) (hw : Wrote a data t t')
    (hout : ∀ x, start.toNat ≤ x → x < stop.toNat → x < a ∨ a + data.length ≤ x) :
    EnvBlock t'.sys.space.mem start stop strs := by
  refine h.congr fun x hlo hhi => ?_
  rw [hw.mem]
  exact write_outside (hout x hlo hhi)

/-- `strnlen_user` returns the length of a string with its terminator, or 0 if it cannot read
it. -/
def Measures (k : Kern File) : Prop :=
  ∀ s addr count str, CString s.space.mem addr.toNat str → str.length < count →
    k.answer s (.strnlenUser addr count) = 0 ∨
      (k.answer s (.strnlenUser addr count)).toNat = str.length + 1

theorem strnlen_eq {m : Image} {a count : Nat} {str : List UInt8} (h : CString m a str)
    (hcount : str.length < count) : strnlen m count a = str.length + 1 := by
  induction str generalizing a count with
  | nil =>
    cases count with
    | zero => cases hcount
    | succ count =>
      have hz : m a = 0 := (List.cons.inj h.bytes).1
      exact if_pos hz
  | cons c str ih =>
    cases count with
    | zero => cases hcount
    | succ count =>
      have hread := h.bytes
      rw [List.length_cons, Nat.add_comm (str.length + 1) 1, Image.read_add] at hread
      obtain ⟨hc, htail⟩ := List.cons.inj hread
      have hne : ¬m a = 0 := fun hz => h.noNul (by
        rw [← hc]
        show 0 ∈ m (a + 0) :: str
        rw [Nat.add_zero, hz]
        exact List.mem_cons_self)
      rw [strnlen, if_neg hne, List.length_cons, Nat.add_comm 1]
      rw [ih ⟨htail, fun hin => h.noNul (List.mem_cons_of_mem c hin)⟩
        (Nat.lt_of_succ_lt_succ hcount)]

theorem roomyKern_measures (content : File → List UInt8) : Measures (roomyKern content) := by
  intro s addr count str hstr hcount
  have hlen := strnlen_eq hstr hcount
  show (if strnlen _ _ _ < 2 ^ 64 then UInt64.ofNat (strnlen _ _ _) else 0) = 0 ∨
    (if strnlen _ _ _ < 2 ^ 64 then UInt64.ofNat (strnlen _ _ _) else 0).toNat = str.length + 1
  rw [hlen]
  split
  · rename_i hlt
    exact .inr (toNat_ofNat_lt hlt)
  · exact .inl rfl

theorem traverseEnvEnt_ok (hk : Measures k) {start len : UInt64} {str : List UInt8}
    (hstr : CString t.sys.space.mem start.toNat str) (hshort : str.length < maxArgStrlen)
    (h : LoadStep.traverseEnvEnt k start t = (.ok len, t')) :
    len.toNat = str.length + 1 ∧ t'.sys.space = t.sys.space ∧ t'.p = t.p := by
  obtain ⟨len', t₁, hcall, hrest⟩ := Fallible.bind_ok_iff.mp h
  obtain ⟨u, t₂, hgoto, hpure⟩ := Fallible.bind_ok_iff.mp hrest
  obtain ⟨hgood, rfl⟩ := gotoIf_ok.mp hgoto
  cases hcall
  cases hpure
  refine ⟨(hk t.sys start maxArgStrlen str hstr hshort).resolve_left ?_, rfl, rfl⟩
  exact fun hz => hgood (.inl hz)

/-- The strings of the environment are counted. -/
theorem countEnv_ok (hk : Measures k) {fuel n : Nat} {start stop : UInt64}
    {strs : List (List UInt8)} (henv : EnvBlock t.sys.space.mem start stop strs)
    (hfuel : (block strs).length ≤ fuel) (h : countEnv k stop fuel start t = (.ok n, t')) :
    n = strs.length ∧ t'.sys.space = t.sys.space ∧ t'.p = t.p := by
  induction strs generalizing start fuel n t with
  | nil =>
    have hstop : start.toNat = stop.toNat := henv.stop
    have hlt : ¬start < stop := by
      rw [UInt64.lt_iff_toNat_lt]
      omega
    cases fuel with
    | zero =>
      cases h
      exact ⟨rfl, rfl, rfl⟩
    | succ fuel =>
      rw [countEnv, if_neg hlt] at h
      cases h
      exact ⟨rfl, rfl, rfl⟩
  | cons str strs ih =>
    have hstop := henv.stop
    rw [block_cons_length] at hstop hfuel
    have hlt : start < stop := by
      rw [UInt64.lt_iff_toNat_lt]
      omega
    cases fuel with
    | zero => omega
    | succ fuel =>
      rw [countEnv, if_pos hlt] at h
      obtain ⟨len, t₁, htrav, hrest⟩ := Fallible.bind_ok_iff.mp h
      obtain ⟨m, t₂, hcount, hpure⟩ := Fallible.bind_ok_iff.mp hrest
      obtain ⟨hlen, hspace, hp⟩ :=
        traverseEnvEnt_ok hk henv.first (henv.short str List.mem_cons_self) htrav
      have htail := henv.tail hlen
      rw [← hspace] at htail
      have hfuel' : (block strs).length ≤ fuel := by omega
      cases hpure
      obtain ⟨hm, hspace', hp'⟩ := ih htail hfuel' hcount
      exact ⟨congrArg _ hm, hspace'.trans hspace, hp'.trans hp⟩

theorem Wrote.of_space {a : Nat} (hspace : t'.sys.space = t.sys.space) (hp : t'.p = t.p) :
    Wrote a [] t t' := by
  have hnil := Wrote.nil a t
  refine ⟨?_, ?_, hp⟩
  · rw [hspace]
    exact hnil.mem
  · rw [hspace]

/-- The pointers of the environment are put from `sp` on. -/
theorem putEnv_ok (hk : Measures k) {fuel : Nat} {start stop sp sp' : UInt64}
    {strs : List (List UInt8)} (henv : EnvBlock t.sys.space.mem start stop strs)
    (hfuel : (block strs).length ≤ fuel) (hsp : sp.toNat + 8 * strs.length < 2 ^ 64)
    (hout : ∀ x, start.toNat ≤ x → x < stop.toNat → x < sp.toNat ∨ sp.toNat + 8 * strs.length ≤ x)
    (h : putEnv k stop fuel start sp t = (.ok sp', t')) :
    sp'.toNat = sp.toNat + 8 * strs.length ∧
      Wrote sp.toNat (Image.wordBytes (ptrs start.toNat strs)) t t' := by
  induction strs generalizing start sp fuel t with
  | nil =>
    have hstop : start.toNat = stop.toNat := henv.stop
    have hlt : ¬start < stop := by
      rw [UInt64.lt_iff_toNat_lt]
      omega
    cases fuel with
    | zero =>
      cases h
      exact ⟨rfl, Wrote.nil _ _⟩
    | succ fuel =>
      rw [putEnv, if_neg hlt] at h
      cases h
      exact ⟨rfl, Wrote.nil _ _⟩
  | cons str strs ih =>
    have hstop := henv.stop
    rw [block_cons_length] at hstop hfuel
    rw [List.length_cons] at hsp hout ⊢
    have hlt : start < stop := by
      rw [UInt64.lt_iff_toNat_lt]
      omega
    cases fuel with
    | zero => omega
    | succ fuel =>
      rw [putEnv, if_pos hlt] at h
      obtain ⟨u, t₁, hput, hrest⟩ := Fallible.bind_ok_iff.mp h
      obtain ⟨len, t₂, htrav, hrest⟩ := Fallible.bind_ok_iff.mp hrest
      have hw₁ := putUser_ok hput
      have henv₁ := henv.wrote hw₁ (by
        intro x hlo hhi
        have := hout x hlo hhi
        rw [leBytes_length]
        omega)
      obtain ⟨hlen, hspace, hp⟩ :=
        traverseEnvEnt_ok hk henv₁.first (henv.short str List.mem_cons_self) htrav
      have htail := henv₁.tail hlen
      rw [← hspace] at htail
      have hadd : (start + len).toNat = start.toNat + (str.length + 1) := by
        have hlt := stop.toNat_lt
        rw [toNat_add_lt, hlen]
        omega
      have height : (sp + 8).toNat = sp.toNat + 8 := toNat_add_eight (by omega)
      have hfuel' : (block strs).length ≤ fuel := by omega
      have hout' : ∀ x, (start + len).toNat ≤ x → x < stop.toNat →
          x < (sp + 8).toNat ∨ (sp + 8).toNat + 8 * strs.length ≤ x := by
        intro x hlo hhi
        have := hout x (by omega) hhi
        omega
      obtain ⟨hsp', hw⟩ := ih htail hfuel' (by omega) hout' hrest
      refine ⟨by omega, (hw₁.append (.of_space hspace hp)).append ?_⟩
      rw [List.append_nil, leBytes_length, ← height, ← hadd]
      exact hw

end Loops

end Loader

end NoDrop
