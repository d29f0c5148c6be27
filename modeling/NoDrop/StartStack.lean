import NoDrop.LoaderStack

/-! # The stack the monitor starts on

`create_elf_tbls` writes the stack from the top down, with strings of any length, and the
pointers and the auxiliary vector below them; `_start_c` and `nod_start_main` of
`monitor/src/startup.c` read it from the bottom up.  The theorem is that they agree
(`createElfTbls_decoded`).

The words at the stack pointer are one list, `startWords`.  That they end where the strings
begin, or below, is the count of the items before the pointer was rounded.
-/
namespace NoDrop

open Areas Bytes

namespace Loader

/-! ## What is written -/

/-- The words at the stack pointer. -/
def startWords (argv : List (List UInt8)) (argStart infoAddr : Nat) (envs : List (List UInt8))
    (envStart : Nat) (info : List Nat) : List Nat :=
  (argv.length + 1) ::
    (ptrs argStart argv ++ (infoAddr :: 0 :: (ptrs envStart envs ++ (0 :: info))))

theorem startWords_length (argv : List (List UInt8)) (argStart infoAddr : Nat)
    (envs : List (List UInt8)) (envStart : Nat) (info : List Nat) :
    (startWords argv argStart infoAddr envs envStart info).length =
      argv.length + 1 + (envs.length + 1) + 1 + 1 + info.length := by
  simp only [startWords, List.length_cons, List.length_append, ptrs_length]
  omega

/-- The words are words, if the strings are below 2^64. -/
theorem startWords_lt {argv envs : List (List UInt8)} {argStart infoAddr envStart : Nat}
    {info : List Nat} (hargs : argv.length + 1 < 2 ^ 64)
    (hstrs : argStart + (block argv).length ≤ 2 ^ 64) (hinfo : infoAddr < 2 ^ 64)
    (henvs : envStart + (block envs).length ≤ 2 ^ 64) (haux : ∀ w ∈ info, w < 2 ^ 64) :
    ∀ w ∈ startWords argv argStart infoAddr envs envStart info, w < 2 ^ 64 := by
  intro w hw
  simp only [startWords, List.mem_cons, List.mem_append] at hw
  rcases hw with rfl | hw | rfl | rfl | hw | rfl | hw
  · exact hargs
  · exact Nat.lt_of_lt_of_le (lt_of_mem_ptrs hw).2 hstrs
  · exact hinfo
  · decide
  · exact Nat.lt_of_lt_of_le (lt_of_mem_ptrs hw).2 henvs
  · decide
  · exact haux w hw

section Write

variable {File : Type} {k : Kern File} {t t' : LoadState File}

theorem toNat_stackRound {p : UInt64} {n items : Nat} (h : 8 * n + 8 * items ≤ p.toNat) :
    (stackRound p n items).toNat = (p.toNat - 8 * n - 8 * items) / 16 * 16 := by
  have hp := p.toNat_lt
  have hn : (UInt64.ofNat (8 * n)).toNat = 8 * n := toNat_ofNat_lt (by omega)
  have hi : (UInt64.ofNat (8 * items)).toNat = 8 * items := toNat_ofNat_lt (by omega)
  have hsub : (p - UInt64.ofNat (8 * n)).toNat = p.toNat - 8 * n := by
    rw [UInt64.toNat_sub_of_le, hn]
    rw [UInt64.le_iff_toNat_le, hn]
    omega
  have hsub' : (p - UInt64.ofNat (8 * n) - UInt64.ofNat (8 * items)).toNat =
      p.toNat - 8 * n - 8 * items := by
    rw [UInt64.toNat_sub_of_le, hsub, hi]
    rw [UInt64.le_iff_toNat_le, hsub, hi]
    omega
  have hmask : (~~~(15 : UInt64)).toNat = 2 ^ 64 - 2 ^ 4 := by decide
  rw [stackRound, UInt64.toNat_and, hmask, and_highMask (UInt64.toNat_lt _) (by decide), hsub']
  rfl

/-- **The second half of `create_elf_tbls`** writes the words below the strings. -/
theorem putTbls_ok (hk : Measures k) {setup : LoadSetup} {argv envs : List (List UInt8)}
    {info : List UInt64} {argStart : UInt64} {u : Unit}
    (henv : EnvBlock t.sys.space.mem setup.envStart setup.envEnd envs)
    (hroom : 8 * (argv.length + envs.length + 4 + info.length) + 15 ≤ argStart.toNat)
    (hstr : argStart.toNat + (block argv).length < 2 ^ 64)
    (hout : ∀ x, setup.envStart.toNat ≤ x → x < setup.envEnd.toNat →
      x < argStart.toNat - (8 * (argv.length + envs.length + 4 + info.length) + 15) ∨
        argStart.toNat ≤ x)
    (h : putTbls k setup argv info argStart t = (.ok u, t')) :
    ∃ sp : UInt64, sp.toNat % 16 = 0 ∧
      sp.toNat + 8 * (argv.length + envs.length + 4 + info.length) ≤ argStart.toNat ∧
      argStart.toNat ≤ sp.toNat + 8 * (argv.length + envs.length + 4 + info.length) + 15 ∧
      t'.p = { t.p with stackAddr := sp } ∧ t'.sys.space.mmap = t.sys.space.mmap ∧
      t'.sys.space.mem = t.sys.space.mem.write
        ⟨sp.toNat, Image.wordBytes (startWords argv argStart.toNat t.p.stackInfoAddr.toNat envs
          setup.envStart.toNat (info.map UInt64.toNat))⟩ := by
  have hfuel : (block envs).length ≤ setup.envEnd.toNat - setup.envStart.toNat := by
    have := henv.stop
    omega
  obtain ⟨envc, t₁, hcount, h⟩ := Fallible.bind_ok_iff.mp h
  obtain ⟨rfl, hspace, hp⟩ := countEnv_ok hk henv hfuel hcount
  have hsp : (stackRound argStart info.length (argv.length + 1 + (envs.length + 1) + 1 + 1)).toNat =
      (argStart.toNat - 8 * info.length - 8 * (argv.length + 1 + (envs.length + 1) + 1 + 1)) / 16 *
        16 := toNat_stackRound (by omega)
  generalize stackRound argStart info.length (argv.length + 1 + (envs.length + 1) + 1 + 1) = sp
    at h hsp
  obtain ⟨_, t₂, hassign, h⟩ := Fallible.bind_ok_iff.mp h
  obtain ⟨_, t₃, hargc, h⟩ := Fallible.bind_ok_iff.mp h
  obtain ⟨sp₁, t₄, hargs, h⟩ := Fallible.bind_ok_iff.mp h
  obtain ⟨infoAddr, t₅, hread, h⟩ := Fallible.bind_ok_iff.mp h
  obtain ⟨_, t₆, hinfo, h⟩ := Fallible.bind_ok_iff.mp h
  obtain ⟨_, t₇, hnull, h⟩ := Fallible.bind_ok_iff.mp h
  obtain ⟨sp₂, t₈, henvs, h⟩ := Fallible.bind_ok_iff.mp h
  obtain ⟨_, t₉, hnull', haux⟩ := Fallible.bind_ok_iff.mp h
  cases hassign
  cases hread
  have hlt := argStart.toNat_lt
  have hargc' : (UInt64.ofNat (argv.length + 1)).toNat = argv.length + 1 :=
    toNat_ofNat_lt (by omega)
  -- each store begins where the one before ends
  have haddr₁ : (sp + 8).toNat = sp.toNat + 8 := toNat_add_eight (by omega)
  have hw₁ := putUser_ok hargc
  rw [hargc'] at hw₁
  obtain ⟨hsp₁, hw₂⟩ := putArgs_ok hargs hstr (by rw [haddr₁]; omega)
  rw [haddr₁] at hsp₁ hw₂
  have hw₃ := putUser_ok hinfo
  have haddr₂ : (sp₁ + 8).toNat = sp₁.toNat + 8 := toNat_add_eight (by omega)
  have hw₄ := putUser_ok hnull
  rw [haddr₂] at hw₄
  have haddr₃ : (sp₁ + 8 + 8).toNat = sp₁.toNat + 16 := by
    rw [toNat_add_eight (by omega), haddr₂]
  -- the environment is elsewhere
  have hwords : ∀ ws : List Nat, (Image.wordBytes ws).length = 8 * ws.length :=
    Image.wordBytes_length
  have hupto := ((hw₁.append (by rw [leBytes_length]; exact hw₂)).append
    (by rw [List.length_append, leBytes_length, hwords, ptrs_length, ← Nat.add_assoc, ← hsp₁]
        exact hw₃)).append
    (by rw [List.length_append, List.length_append, leBytes_length, leBytes_length, hwords,
          ptrs_length]
        rw [show sp.toNat + (8 + 8 * argv.length + 8) = sp₁.toNat + 8 by omega]
        exact hw₄)
  have henv₇ : EnvBlock t₇.sys.space.mem setup.envStart setup.envEnd envs := by
    refine EnvBlock.wrote (by rw [hspace]; exact henv) hupto ?_
    intro x hlo hhi
    have := hout x hlo hhi
    simp only [List.length_append, leBytes_length, hwords, ptrs_length]
    omega
  obtain ⟨hsp₂, hw₅⟩ := putEnv_ok hk henv₇ hfuel (by rw [haddr₃]; omega) (by
    intro x hlo hhi
    have := hout x hlo hhi
    rw [haddr₃]
    omega) henvs
  rw [haddr₃] at hsp₂ hw₅
  have hw₆ := putUser_ok hnull'
  have haddr₄ : (sp₂ + 8).toNat = sp₂.toNat + 8 := toNat_add_eight (by omega)
  have hw₇ := copyToUser_ok haux
  rw [haddr₄] at hw₇
  have hall := ((hupto.append (by
      simp only [List.length_append, leBytes_length, hwords, ptrs_length]
      rw [show sp.toNat + (8 + 8 * argv.length + 8 + 8) = sp₁.toNat + 16 by omega]
      exact hw₅)).append (by
      simp only [List.length_append, leBytes_length, hwords, ptrs_length]
      rw [show sp.toNat + (8 + 8 * argv.length + 8 + 8 + 8 * envs.length) = sp₂.toNat by omega]
      exact hw₆)).append (by
      simp only [List.length_append, leBytes_length, hwords, ptrs_length]
      rw [show sp.toNat + (8 + 8 * argv.length + 8 + 8 + 8 * envs.length + 8) = sp₂.toNat + 8 by
        omega]
      exact hw₇)
  refine ⟨sp, by omega, by omega, by omega, ?_, ?_, ?_⟩
  · rw [hall.p, ← hp]
  · rw [hall.mmap, ← hspace]
  · have hinfo' : t₄.p.stackInfoAddr = t.p.stackInfoAddr := by
      rw [hw₂.p, hw₁.p, ← hp]
    have hzero : (0 : UInt64).toNat = 0 := rfl
    rw [hall.mem, ← hspace]
    dsimp only
    rw [hinfo', hzero]
    simp only [startWords, Image.wordBytes, List.flatMap_cons, List.flatMap_append,
      List.append_assoc]

/-- An address below another one. -/
theorem toNat_sub_of_le {u v : UInt64} {m n : Nat} (hu : u.toNat = m) (hv : v.toNat = n)
    (hle : n ≤ m) : (u - v).toNat = m - n := by
  rw [UInt64.toNat_sub_of_le, hu, hv]
  rw [UInt64.le_iff_toNat_le, hu, hv]
  exact hle

/-- The `nod_stack_info` that is stored: with the bounds of the stack. -/
def stackInfoAt (setup : LoadSetup) (start : UInt64) (info : NodStackInfo) : NodStackInfo :=
  { info with stackStart := start, stackEnd := start + setup.stackSize }

/-- **The first half of `create_elf_tbls`** makes the stack, and writes the random bytes, the
`nod_stack_info` and the strings at its end, without a gap between them. -/
theorem fillStack_ok (hk : k.Maps) (hs : Sorted t.sys.space.mmap) {setup : LoadSetup}
    {argv : List (List UInt8)} {uRand argStart : UInt64}
    (hroom : (block argv).length + 96 ≤ setup.stackSize.toNat)
    (h : fillStack k setup argv t = (.ok (uRand, argStart), t')) :
    ∃ (start : UInt64) (s₁ : Sys File),
      start.toNat + pageAlign setup.stackSize.toNat ≤ taskSize ∧
      t.sys.space.Free start.toNat (pageAlign setup.stackSize.toNat) ∧
      Sorted s₁.space.mmap ∧ Grows t.sys s₁ ∧
      (∀ x, start.toNat ≤ x → x < start.toNat + pageAlign setup.stackSize.toNat →
        lookup s₁.space.mmap x = some ⟨none, ⟨true, true, false⟩, .stack⟩) ∧
      uRand.toNat + 24 = start.toNat + setup.stackSize.toNat ∧
      argStart.toNat + (block argv).length + 72 = uRand.toNat ∧
      t'.p.stackInfoAddr.toNat + 72 = uRand.toNat ∧
      t'.p = { t.p with
        stackInfo := stackInfoAt setup start t.p.stackInfo
        stackInfoAddr := t'.p.stackInfoAddr } ∧
      t'.sys.space.mmap = s₁.space.mmap ∧
      t'.sys.space.mem = s₁.space.mem.write ⟨argStart.toNat,
        block argv ++ ((stackInfoAt setup start t.p.stackInfo).bytes ++ setup.rand)⟩ := by
  obtain ⟨start, t₁, hstack, h⟩ := Fallible.bind_ok_iff.mp h
  obtain ⟨_, t₂, hgoto, h⟩ := Fallible.bind_ok_iff.mp h
  obtain ⟨_, t₃, hassign, h⟩ := Fallible.bind_ok_iff.mp h
  obtain ⟨_, t₄, hrand, h⟩ := Fallible.bind_ok_iff.mp h
  obtain ⟨_, t₅, hassign', h⟩ := Fallible.bind_ok_iff.mp h
  obtain ⟨info, t₆, hread, h⟩ := Fallible.bind_ok_iff.mp h
  obtain ⟨_, t₇, hinfo, h⟩ := Fallible.bind_ok_iff.mp h
  obtain ⟨argStart', t₈, hpush, hpure⟩ := Fallible.bind_ok_iff.mp h
  cases hpure
  obtain ⟨hgood, rfl⟩ := gotoIf_ok.mp hgoto
  obtain ⟨v, s₁, heq, hs₁, hgrow, hnew⟩ := createStack_cases hk hs 0 setup.stackSize
  unfold LoadStep.call Fallible.lift at hstack
  dsimp only at hstack
  rw [heq] at hstack
  dsimp only at hstack
  cases hstack
  obtain ⟨-, htop, hfree, hmapped⟩ := hnew hgood
  cases hassign
  cases hassign'
  cases hread
  have hpage := le_pageAlign setup.stackSize.toNat
  have hend : (start + setup.stackSize).toNat = start.toNat + setup.stackSize.toNat := by
    rw [toNat_add_lt]
    unfold taskSize at htop
    omega
  have hptr : (start + setup.stackSize - sizeofPtr).toNat =
      start.toNat + setup.stackSize.toNat - 8 := toNat_sub_of_le hend rfl (by omega)
  have hrandAddr : (start + setup.stackSize - sizeofPtr - sizeofRand).toNat =
      start.toNat + setup.stackSize.toNat - 24 := by
    rw [toNat_sub_of_le hptr (show sizeofRand.toNat = 16 from rfl) (by omega)]
    omega
  have hinfoAddr : (start + setup.stackSize - sizeofPtr - sizeofRand - sizeofStackInfo).toNat =
      start.toNat + setup.stackSize.toNat - 96 := by
    rw [toNat_sub_of_le hrandAddr (show sizeofStackInfo.toNat = 72 from rfl) (by omega)]
    omega
  have hw₁ := copyToUser_ok hrand
  have hw₂ := copyToUser_ok hinfo
  obtain ⟨hargs, hw₃⟩ := pushArgs_ok hpush (by rw [List.reverse_reverse]; omega)
  rw [List.reverse_reverse] at hargs hw₃
  have hp : t'.p = { t.p with
      stackInfo := stackInfoAt setup start t.p.stackInfo
      stackInfoAddr := start + setup.stackSize - sizeofPtr - sizeofRand - sizeofStackInfo } := by
    rw [hw₃.p, hw₂.p]
    dsimp only
    rw [hw₁.p]
    rfl
  refine ⟨start, s₁, htop, hfree, hs₁, hgrow, hmapped, by omega, by omega, ?_, ?_, ?_, ?_⟩
  · rw [hp]
    dsimp only
    omega
  · rw [hp]
  · rw [hw₃.mmap, hw₂.mmap]
    dsimp only
    rw [hw₁.mmap]
  · have hlen := (stackInfoAt setup start t.p.stackInfo).bytes_length
    have hinfo' : t₄.p.stackInfo = stackInfoAt setup start t.p.stackInfo := by
      rw [hw₁.p]
      rfl
    rw [hw₃.mem, hw₂.mem]
    dsimp only
    rw [hw₁.mem, hinfo', hrandAddr, hinfoAddr]
    have h1 : start.toNat + setup.stackSize.toNat - 24 =
        start.toNat + setup.stackSize.toNat - 96 +
          (stackInfoAt setup start t.p.stackInfo).bytes.length := by omega
    have h2 : start.toNat + setup.stackSize.toNat - 96 =
        argStart.toNat + (block argv).length := by omega
    rw [h1, Image.write_append_below, h2, Image.write_append_below]

end Write

/-! ## How it is read -/

/-- `AUX_CNT`. -/
def auxCnt : Nat := 32

/-- What `_start_c` finds on the stack: `argc`, where `argv` and the environment are, and the
auxiliary vector by its types. -/
structure Started where
  argc : Int
  argv : Nat
  envp : Nat
  aux : Nat → Nat

/-- The loop `for (i = argc + 1; argv[i]; i++)`. -/
def scanEnv (m : Image) : Nat → Nat → Option Nat
  | 0, _ => none
  | fuel + 1, a => if m.word a = 0 then some a else scanEnv m fuel (a + 8)

/-- The loop `for (i = 0; auxv[i]; i += 2)`. -/
def scanAux (m : Image) : Nat → Nat → (Nat → Nat) → Option (Nat → Nat)
  | 0, _, _ => none
  | fuel + 1, a, aux =>
    if m.word a = 0 then some aux
    else
      scanAux m fuel (a + 16)
        (if m.word a < auxCnt then Function.update aux (m.word a) (m.word (a + 8)) else aux)

/-- The part of `_start_c` that reads the stack. -/
def startC (fuel : Nat) (m : Image) (sp : Nat) : Option Started := do
  let argc : Int := (m.word sp : Int).bmod (2 ^ 32)
  let argv := sp + 8
  let envp := ((argv : Int) + 8 * (argc + 1)).toNat
  let stop ← scanEnv m fuel envp
  let aux ← scanAux m fuel (stop + 8) fun _ => 0
  some ⟨argc, argv, envp, aux⟩

/-- `argv[argc - 1]`, which `nod_start_main` takes for its `struct nod_stack_info`. -/
def Started.info (st : Started) (m : Image) : Nat :=
  m.word ((st.argv : Int) + 8 * (st.argc - 1)).toNat

section Read

variable {m : Image}

theorem scanEnv_eq {ws : List Nat} {a fuel : Nat} (hfuel : ws.length < fuel)
    (hws : ∀ i w, ws[i]? = some w → m.word (a + 8 * i) = w) (hne : ∀ w ∈ ws, w ≠ 0)
    (hend : m.word (a + 8 * ws.length) = 0) : scanEnv m fuel a = some (a + 8 * ws.length) := by
  induction ws generalizing a fuel with
  | nil =>
    cases fuel with
    | zero => cases hfuel
    | succ fuel => exact if_pos hend
  | cons w ws ih =>
    cases fuel with
    | zero => cases hfuel
    | succ fuel =>
      have hw : m.word a = w := hws 0 w rfl
      rw [scanEnv, if_neg (by rw [hw]; exact hne w List.mem_cons_self)]
      have hshift : ∀ i, a + 8 * (i + 1) = a + 8 + 8 * i := fun i => by omega
      rw [ih (Nat.lt_of_succ_lt_succ hfuel), List.length_cons, hshift]
      · intro i v hi
        rw [← hshift]
        exact hws (i + 1) v hi
      · exact fun v hv => hne v (List.mem_cons_of_mem w hv)
      · rw [← hshift]
        exact hend

/-- What the loop over the auxiliary vector makes of its entries. -/
def auxTable (entries : List (Nat × Nat)) (aux : Nat → Nat) : Nat → Nat :=
  entries.foldl (fun aux e => if e.1 < auxCnt then Function.update aux e.1 e.2 else aux) aux

theorem scanAux_eq {entries : List (Nat × Nat)} {a fuel : Nat} {aux : Nat → Nat}
    (hfuel : entries.length < fuel)
    (hws : ∀ i e, entries[i]? = some e →
      m.word (a + 16 * i) = e.1 ∧ m.word (a + 16 * i + 8) = e.2)
    (hne : ∀ e ∈ entries, e.1 ≠ 0) (hend : m.word (a + 16 * entries.length) = 0) :
    scanAux m fuel a aux = some (auxTable entries aux) := by
  induction entries generalizing a fuel aux with
  | nil =>
    cases fuel with
    | zero => cases hfuel
    | succ fuel => exact if_pos hend
  | cons e entries ih =>
    cases fuel with
    | zero => cases hfuel
    | succ fuel =>
      obtain ⟨h1, h2⟩ : m.word a = e.1 ∧ m.word (a + 8) = e.2 := hws 0 e rfl
      rw [scanAux, if_neg (by rw [h1]; exact hne e List.mem_cons_self), h1, h2]
      have hshift : ∀ i, a + 16 * (i + 1) = a + 16 + 16 * i := fun i => by omega
      rw [ih (Nat.lt_of_succ_lt_succ hfuel)]
      · rfl
      · intro i v hi
        rw [← hshift]
        exact hws (i + 1) v hi
      · exact fun v hv => hne v (List.mem_cons_of_mem e hv)
      · rw [← hshift]
        exact hend

/-- The words of the entries of an auxiliary vector. -/
def pairWords (entries : List (Nat × Nat)) : List Nat := entries.flatMap fun e => [e.1, e.2]

theorem pairWords_length (entries : List (Nat × Nat)) :
    (pairWords entries).length = 2 * entries.length := by
  induction entries with
  | nil => rfl
  | cons e entries ih =>
    show (e.1 :: e.2 :: pairWords entries).length = _
    rw [List.length_cons, List.length_cons, ih, List.length_cons]
    omega

theorem pairWords_getElem? {entries : List (Nat × Nat)} {i : Nat} {e : Nat × Nat}
    (h : entries[i]? = some e) :
    (pairWords entries)[2 * i]? = some e.1 ∧ (pairWords entries)[2 * i + 1]? = some e.2 := by
  induction entries generalizing i with
  | nil => cases h
  | cons f entries ih =>
    cases i with
    | zero =>
      cases h
      exact ⟨rfl, rfl⟩
    | succ i => exact ih h

/-- The words at the stack pointer, one after the other. -/
structure Holds (m : Image) (sp : Nat) (argv envs : List (List UInt8))
    (argStart infoAddr envStart : Nat) (entries : List (Nat × Nat)) : Prop where
  argc : m.word sp = argv.length + 1
  args : ∀ i w, (ptrs argStart argv)[i]? = some w → m.word (sp + 8 + 8 * i) = w
  info : m.word (sp + 8 + 8 * argv.length) = infoAddr
  null : m.word (sp + 8 + 8 * (argv.length + 1)) = 0
  env : ∀ i w, (ptrs envStart envs)[i]? = some w → m.word (sp + 8 * (argv.length + 3) + 8 * i) = w
  envNull : m.word (sp + 8 * (argv.length + 3) + 8 * envs.length) = 0
  aux : ∀ i e, entries[i]? = some e →
    m.word (sp + 8 * (argv.length + envs.length + 4) + 16 * i) = e.1 ∧
      m.word (sp + 8 * (argv.length + envs.length + 4) + 16 * i + 8) = e.2
  auxNull : m.word (sp + 8 * (argv.length + envs.length + 4) + 16 * entries.length) = 0

theorem Holds.of_write (m : Image) {sp argStart infoAddr envStart : Nat}
    {argv envs : List (List UInt8)} {entries : List (Nat × Nat)}
    (hlt : ∀ w ∈ startWords argv argStart infoAddr envs envStart (pairWords entries ++ [0, 0]),
      w < 2 ^ 64) :
    Holds (m.write ⟨sp, Image.wordBytes
      (startWords argv argStart infoAddr envs envStart (pairWords entries ++ [0, 0]))⟩)
      sp argv envs argStart infoAddr envStart entries := by
  let info := pairWords entries ++ [0, 0]
  let ws := startWords argv argStart infoAddr envs envStart info
  have hword : ∀ a i w, ws[i]? = some w → sp + 8 * i = a →
      (m.write ⟨sp, Image.wordBytes ws⟩).word a = w := by
    rintro a i w h rfl
    exact Image.word_write_getElem? m sp h (hlt w (List.mem_of_getElem? h))
  -- what stands behind the pointers of `argv`, and behind those of the environment
  have hargs : ∀ i w, (ptrs argStart argv)[i]? = some w → ws[1 + i]? = some w := by
    intro i w h
    have hi := (List.getElem?_eq_some_iff.mp h).1
    rw [Nat.add_comm]
    exact (List.getElem?_append_left hi).trans h
  have hafter : ∀ j, ws[1 + argv.length + j]? =
      (infoAddr :: 0 :: (ptrs envStart envs ++ (0 :: info)))[j]? := by
    intro j
    have hshift : 1 + argv.length + j = (ptrs argStart argv).length + j + 1 := by
      rw [ptrs_length]
      omega
    rw [hshift]
    refine (List.getElem?_append_right (Nat.le_add_right ..)).trans ?_
    rw [Nat.add_sub_cancel_left]
  have henv : ∀ i w, (ptrs envStart envs)[i]? = some w → ws[1 + argv.length + (i + 2)]? = some w := by
    intro i w h
    have hi := (List.getElem?_eq_some_iff.mp h).1
    rw [hafter]
    exact (List.getElem?_append_left hi).trans h
  have hlast : ∀ j, ws[1 + argv.length + (envs.length + j + 2)]? = (0 :: info)[j]? := by
    intro j
    rw [hafter]
    refine (List.getElem?_append_right (by rw [ptrs_length]; omega)).trans ?_
    rw [ptrs_length, Nat.add_sub_cancel_left]
  constructor
  · exact hword _ 0 _ rfl rfl
  · exact fun i w h => hword _ _ w (hargs i w h) (by omega)
  · exact hword _ _ _ (hafter 0) (by omega)
  · exact hword _ _ _ (hafter 1) (by omega)
  · exact fun i w h => hword _ _ w (henv i w h) (by omega)
  · exact hword _ _ _ (hlast 0) (by omega)
  · intro i e h
    obtain ⟨h1, h2⟩ := pairWords_getElem? h
    have hi := (List.getElem?_eq_some_iff.mp h1).1
    have hi' := (List.getElem?_eq_some_iff.mp h2).1
    have hinfo1 : info[2 * i]? = some e.1 := (List.getElem?_append_left hi).trans h1
    have hinfo2 : info[2 * i + 1]? = some e.2 := (List.getElem?_append_left hi').trans h2
    exact ⟨hword _ _ _ ((hlast (2 * i + 1)).trans hinfo1) (by omega),
      hword _ _ _ ((hlast (2 * i + 1 + 1)).trans hinfo2) (by omega)⟩
  · have hinfo : info[2 * entries.length]? = some 0 := by
      refine (List.getElem?_append_right (by rw [pairWords_length])).trans ?_
      rw [pairWords_length, Nat.sub_self]
      rfl
    exact hword _ _ _ ((hlast (2 * entries.length + 1)).trans hinfo) (by omega)

/-- **The reader finds what the writer put**, wherever the scans are given enough steps. -/
theorem Holds.startC {sp argStart infoAddr envStart : Nat} {argv envs : List (List UInt8)}
    {entries : List (Nat × Nat)} (h : Holds m sp argv envs argStart infoAddr envStart entries)
    (hargc : argv.length + 1 < 2 ^ 31) (hpos : envs ≠ [] → 0 < envStart)
    (hne : ∀ e ∈ entries, e.1 ≠ 0) {fuel : Nat} (henvs : envs.length < fuel)
    (haux : entries.length < fuel) :
    startC fuel m sp = some ⟨argv.length + 1, sp + 8, sp + 8 * (argv.length + 3),
      auxTable entries fun _ => 0⟩ := by
  have hbmod : ((m.word sp : Nat) : Int).bmod (2 ^ 32) = argv.length + 1 := by
    rw [h.argc]
    push_cast
    rw [Int.bmod_eq_of_le (by omega) (by omega)]
  have henvp : (((sp + 8 : Nat) : Int) + 8 * (((argv.length : Int) + 1) + 1)).toNat =
      sp + 8 * (argv.length + 3) := by
    omega
  have hptrs := ptrs_length envStart envs
  have hscan : scanEnv m fuel (sp + 8 * (argv.length + 3)) =
      some (sp + 8 * (argv.length + 3) + 8 * envs.length) := by
    rw [← hptrs]
    refine scanEnv_eq (by omega) h.env ?_ (by rw [hptrs]; exact h.envNull)
    intro w hw
    have hnil : envs ≠ [] := by
      rintro rfl
      cases hw
    have := hpos hnil
    have := (lt_of_mem_ptrs hw).1
    omega
  have hauxAddr : sp + 8 * (argv.length + 3) + 8 * envs.length + 8 =
      sp + 8 * (argv.length + envs.length + 4) := by
    omega
  unfold Loader.startC
  dsimp only
  rw [hbmod, henvp, hscan]
  dsimp only [bind, Option.bind]
  rw [hauxAddr, scanAux_eq haux h.aux hne h.auxNull]

end Read

/-! ## Writer and reader agree -/

/-- The entries of the auxiliary vector before `AT_NULL`. -/
def auxEntries {File : Type} (exec : ElfImage File)
    (loadAddr interpLoadAddr hwcap uRandBytes : UInt64) : List (Nat × Nat) :=
  [(atHwcap.toNat, hwcap.toNat), (atPagesz.toNat, 4096), (atClktck.toNat, 100),
    (atPhdr.toNat, (loadAddr + exec.ePhoff).toNat), (atPhent.toNat, sizeofPhdr.toNat),
    (atPhnum.toNat, (UInt64.ofNat exec.phdrs.length).toNat),
    (atBase.toNat, interpLoadAddr.toNat), (atFlags.toNat, 0),
    (atEntry.toNat, (loadAddr + exec.eEntry).toNat), (atRandom.toNat, uRandBytes.toNat)]

theorem elfInfo_eq {File : Type} (exec : ElfImage File)
    (loadAddr interpLoadAddr hwcap uRandBytes : UInt64) :
    (elfInfo exec loadAddr interpLoadAddr hwcap uRandBytes).map UInt64.toNat =
      pairWords (auxEntries exec loadAddr interpLoadAddr hwcap uRandBytes) ++ [0, 0] := rfl

/-- Only the last entry is `AT_NULL`. -/
theorem auxEntries_ne {File : Type} (exec : ElfImage File)
    (loadAddr interpLoadAddr hwcap uRandBytes : UInt64) :
    ∀ e ∈ auxEntries exec loadAddr interpLoadAddr hwcap uRandBytes, e.1 ≠ 0 := by
  intro e he
  have hids : (auxEntries exec loadAddr interpLoadAddr hwcap uRandBytes).map Prod.fst =
      [16, 6, 17, 3, 4, 5, 7, 8, 9, 25] := rfl
  have hmem := List.mem_map_of_mem (f := Prod.fst) he
  rw [hids] at hmem
  have hne : ∀ n ∈ [16, 6, 17, 3, 4, 5, 7, 8, 9, 25], n ≠ 0 := by decide
  exact hne _ hmem

/-- What is on the stack, as start and length, from the stack pointer up: the pointers, the
auxiliary vector, the strings of `argv`, the `nod_stack_info` and the random bytes. -/
def regions (p : ProcEntry) (argv envs : List (List UInt8)) : List (Nat × Nat) :=
  let sp := p.stackAddr.toNat
  let info := p.stackInfoAddr.toNat
  [(sp, 8 * (argv.length + envs.length + 4)), (sp + 8 * (argv.length + envs.length + 4), 8 * 22),
    (info - (block argv).length, (block argv).length), (info, 72), (info + 72, 16)]

/-- How much stack that takes at most. -/
def stackNeeded (argv envs : List (List UInt8)) : Nat :=
  (block argv).length + 96 + (8 * (argv.length + envs.length + 4 + 22) + 15)

section Agree

variable {File : Type}

/-- What the monitor reads when it starts. -/
structure Reads (setup : LoadSetup) (exec : ElfImage File) (loadAddr interpLoadAddr : UInt64)
    (argv envs : List (List UInt8)) (m : Image) (p : ProcEntry) (st : Started) : Prop where
  argc : st.argc = argv.length + 1
  args : ∀ i (h : i < argv.length), CString m (m.word (st.argv + 8 * i)) argv[i]
  info : st.info m = p.stackInfoAddr.toNat
  infoBytes : m.read p.stackInfoAddr.toNat 72 = p.stackInfo.bytes
  null : m.word (st.argv + 8 * (argv.length + 1)) = 0
  env : ∀ i (h : i < envs.length),
    m.word (st.envp + 8 * i) = setup.envStart.toNat + (block (envs.take i)).length ∧
      CString m (m.word (st.envp + 8 * i)) envs[i]
  envNull : m.word (st.envp + 8 * envs.length) = 0
  phdr : st.aux atPhdr.toNat = (loadAddr + exec.ePhoff).toNat
  phent : st.aux atPhent.toNat = sizeofPhdr.toNat
  phnum : st.aux atPhnum.toNat = (UInt64.ofNat exec.phdrs.length).toNat
  base : st.aux atBase.toNat = interpLoadAddr.toNat
  entry : st.aux atEntry.toNat = (loadAddr + exec.eEntry).toNat
  random : m.read (st.aux atRandom.toNat) 16 = setup.rand

/-- The stack the monitor starts on. -/
structure Decoded (setup : LoadSetup) (exec : ElfImage File) (loadAddr interpLoadAddr : UInt64)
    (argv envs : List (List UInt8)) (m : Image) (p : ProcEntry) : Prop where
  aligned : p.stackAddr.toNat % 16 = 0
  apart : (regions p argv envs).Pairwise fun a b => a.1 + a.2 ≤ b.1
  inside : ∀ r ∈ regions p argv envs,
    p.stackInfo.stackStart.toNat ≤ r.1 ∧ r.1 + r.2 ≤ p.stackInfo.stackEnd.toNat
  reads : ∃ st, (∀ fuel, envs.length + 10 < fuel → startC fuel m p.stackAddr.toNat = some st) ∧
    Reads setup exec loadAddr interpLoadAddr argv envs m p st

variable {k : Kern File} {t : LoadState File}

/-- The words and what they point to are what the monitor reads. -/
theorem Holds.reads {setup : LoadSetup} {exec : ElfImage File} {loadAddr interpLoadAddr : UInt64}
    {argv envs : List (List UInt8)} {m : Image} {p : ProcEntry} {uRand : UInt64} {argStart : Nat}
    (h : Holds m p.stackAddr.toNat argv envs argStart p.stackInfoAddr.toNat setup.envStart.toNat
      (auxEntries exec loadAddr interpLoadAddr setup.hwcap uRand))
    (hargv : ∀ arg ∈ argv, 0 ∉ arg)
    (hstrs : m.read argStart (block argv).length = block argv)
    (hinfo : m.read p.stackInfoAddr.toNat 72 = p.stackInfo.bytes)
    (henv : EnvBlock m setup.envStart setup.envEnd envs)
    (hrand : m.read uRand.toNat 16 = setup.rand) :
    Reads setup exec loadAddr interpLoadAddr argv envs m p
      ⟨argv.length + 1, p.stackAddr.toNat + 8, p.stackAddr.toNat + 8 * (argv.length + 3),
        auxTable (auxEntries exec loadAddr interpLoadAddr setup.hwcap uRand) fun _ => 0⟩ := by
  constructor
  case argc => rfl
  case args =>
    intro i hi
    have hword := h.args i _ (ptrs_getElem? argStart argv hi)
    dsimp only
    rw [hword]
    exact CString.of_block hstrs hargv hi
  case info =>
    rw [← h.info]
    unfold Started.info
    dsimp only
    congr 1
    omega
  case infoBytes => exact hinfo
  case null => exact h.null
  case env =>
    intro i hi
    have hword := h.env i _ (ptrs_getElem? setup.envStart.toNat envs hi)
    dsimp only
    rw [hword]
    exact ⟨rfl, CString.of_block henv.bytes henv.noNul hi⟩
  case envNull => exact h.envNull
  case random => exact hrand
  all_goals rfl

/-- The bytes of the words, with the auxiliary vector behind them. -/
theorem startTable_length (exec : ElfImage File) (loadAddr interpLoadAddr hwcap uRand : UInt64)
    (argv envs : List (List UInt8)) (argStart infoAddr envStart : Nat) :
    (Image.wordBytes (startWords argv argStart infoAddr envs envStart
      (pairWords (auxEntries exec loadAddr interpLoadAddr hwcap uRand) ++ [0, 0]))).length =
      8 * (argv.length + envs.length + 4 + 22) := by
  rw [Image.wordBytes_length, startWords_length, List.length_append, pairWords_length]
  show 8 * (_ + 1 + (_ + 1) + 1 + 1 + (2 * 10 + 2)) = _
  omega

/-- The pointers are below the strings, and the strings below the rest. -/
theorem regions_placed {p : ProcEntry} {argv envs : List (List UInt8)} {argStart lo hi : Nat}
    (hlo : lo ≤ p.stackAddr.toNat)
    (hwords : p.stackAddr.toNat + 8 * (argv.length + envs.length + 4 + 22) ≤ argStart)
    (hstrs : argStart + (block argv).length = p.stackInfoAddr.toNat)
    (hhi : p.stackInfoAddr.toNat + 88 ≤ hi) :
    (regions p argv envs).Pairwise (fun a b => a.1 + a.2 ≤ b.1) ∧
      ∀ r ∈ regions p argv envs, lo ≤ r.1 ∧ r.1 + r.2 ≤ hi := by
  constructor
  · simp only [regions, List.pairwise_cons, List.mem_cons, List.not_mem_nil, or_false,
      forall_eq_or_imp, forall_eq, List.Pairwise.nil, and_true, IsEmpty.forall_iff, implies_true]
    and_intros <;> omega
  · simp only [regions, List.mem_cons, List.not_mem_nil, or_false, forall_eq_or_imp, forall_eq]
    and_intros <;> omega

/-- What the first half has written, one after the other. -/
theorem read_parts (m : Image) (a : Nat) (strs info rand : List UInt8) :
    (m.write ⟨a, strs ++ (info ++ rand)⟩).read a strs.length = strs ∧
      (m.write ⟨a, strs ++ (info ++ rand)⟩).read (a + strs.length) info.length = info ∧
      (m.write ⟨a, strs ++ (info ++ rand)⟩).read (a + (strs.length + info.length)) rand.length =
        rand := by
  have hlast := Image.read_write_part m a (strs ++ info) rand []
  rw [List.append_nil, List.append_assoc, List.length_append] at hlast
  exact ⟨Image.read_write_part m a [] strs _, Image.read_write_part m a strs info rand, hlast⟩

/-- A successful `create_elf_tbls`. -/
theorem createElfTbls_ok (hk : k.Maps) (hm : Measures k) (hs : Sorted t.sys.space.mmap)
    {setup : LoadSetup} {exec : ElfImage File} {loadAddr interpLoadAddr : UInt64}
    {argv envs : List (List UInt8)} (hargv : ∀ arg ∈ argv, 0 ∉ arg)
    (henv : EnvBlock t.sys.space.mem setup.envStart setup.envEnd envs)
    (hmapped : ∀ x, setup.envStart.toNat ≤ x → x < setup.envEnd.toNat →
      lookup t.sys.space.mmap x ≠ none)
    (hpos : envs ≠ [] → 0 < setup.envStart.toNat)
    (hroom : stackNeeded argv envs ≤ setup.stackSize.toNat) {u : Unit} {t' : LoadState File}
    (h : createElfTbls k setup exec loadAddr interpLoadAddr argv t = (.ok u, t')) :
    Decoded setup exec loadAddr interpLoadAddr argv envs t'.sys.space.mem t'.p := by
  unfold stackNeeded at hroom
  obtain ⟨⟨uRand, argStart⟩, t₁, hfill, h⟩ := Fallible.bind_ok_iff.mp h
  obtain ⟨mem, t₂, halloc, h⟩ := Fallible.bind_ok_iff.mp h
  obtain ⟨_, t₃, hgoto, hput⟩ := Fallible.bind_ok_iff.mp h
  obtain ⟨-, rfl⟩ := gotoIf_ok.mp hgoto
  have hspace : t₃.sys.space = t₁.sys.space := by
    cases halloc
    rfl
  have hp₃ : t₃.p = t₁.p := by
    cases halloc
    rfl
  obtain ⟨start, s₁, htop, hfree, -, hgrow, -, hrand, harg, hinfo, hp, -, hmem⟩ :=
    fillStack_ok hk hs (by omega) hfill
  rw [← hspace] at hmem
  have hpage := le_pageAlign setup.stackSize.toNat
  have hlen := (stackInfoAt setup start t.p.stackInfo).bytes_length
  have hrlen := setup.rand_length
  -- the stack is new, so that the environment is not on it
  have hapart : ∀ x, setup.envStart.toNat ≤ x → x < setup.envEnd.toNat →
      x < start.toNat ∨ start.toNat + setup.stackSize.toNat ≤ x := by
    intro x hlo hhi
    by_contra hin
    exact hmapped x hlo hhi (hfree x (by omega) (by omega))
  have henv₁ : EnvBlock t₃.sys.space.mem setup.envStart setup.envEnd envs := by
    refine henv.congr fun x hlo hhi => ?_
    have hx := hapart x hlo hhi
    rw [hmem, write_outside]
    · exact (hgrow x (hmapped x hlo hhi)).2
    · rw [List.length_append, List.length_append]
      omega
  have hinfoLen : (elfInfo exec loadAddr interpLoadAddr setup.hwcap uRand).length = 22 := rfl
  obtain ⟨sp, halign, hbelow, habove, hp', -, hmem'⟩ := putTbls_ok hm henv₁
    (by rw [hinfoLen]; omega) (by unfold taskSize at htop; omega) (by
      intro x hlo hhi
      have := hapart x hlo hhi
      rw [hinfoLen]
      omega) hput
  rw [hinfoLen] at hbelow habove
  have hinfoAddr : t'.p.stackInfoAddr = t₁.p.stackInfoAddr := by
    rw [hp', hp₃]
  have hsp : t'.p.stackAddr = sp := by rw [hp']
  have hstackInfo : t'.p.stackInfo = stackInfoAt setup start t.p.stackInfo := by
    rw [hp', hp₃, hp]
  rw [hp₃, ← hinfoAddr, elfInfo_eq] at hmem'
  rw [← hinfoAddr] at hinfo
  have hend : (start + setup.stackSize).toNat = start.toNat + setup.stackSize.toNat := by
    rw [toNat_add_lt]
    unfold taskSize at htop
    omega
  -- above the pointers the memory is as the first half has left it
  have hwords : ∀ b n, argStart.toNat ≤ b →
      t'.sys.space.mem.read b n = t₃.sys.space.mem.read b n := by
    intro b n hb
    rw [hmem']
    refine Image.read_congr fun i _ => write_outside (.inr ?_)
    rw [startTable_length]
    omega
  have hsize := setup.stackSize_lt
  have hlt : ∀ w ∈ startWords argv argStart.toNat t'.p.stackInfoAddr.toNat envs
      setup.envStart.toNat (pairWords (auxEntries exec loadAddr interpLoadAddr setup.hwcap uRand) ++
        [0, 0]), w < 2 ^ 64 := by
    have henvEnd := henv.stop
    have hend64 := setup.envEnd.toNat_lt
    unfold taskSize at htop
    refine startWords_lt (by omega) (by omega) (UInt64.toNat_lt _) (by omega) fun w hw => ?_
    rw [← elfInfo_eq] at hw
    obtain ⟨v, -, rfl⟩ := List.mem_map.mp hw
    exact UInt64.toNat_lt v
  have hholds : Holds t'.sys.space.mem t'.p.stackAddr.toNat argv envs argStart.toNat
      t'.p.stackInfoAddr.toNat setup.envStart.toNat
      (auxEntries exec loadAddr interpLoadAddr setup.hwcap uRand) := by
    rw [hmem', hsp]
    exact Holds.of_write t₃.sys.space.mem hlt
  obtain ⟨hpairs, hinside⟩ := regions_placed (p := t'.p)
    (show start.toNat ≤ t'.p.stackAddr.toNat by rw [hsp]; omega)
    (show t'.p.stackAddr.toNat + 8 * (argv.length + envs.length + 4 + 22) ≤ argStart.toNat by
      rw [hsp]; omega) (by omega)
    (show t'.p.stackInfoAddr.toNat + 88 ≤ start.toNat + setup.stackSize.toNat by omega)
  obtain ⟨hreadStrs, hreadInfo, hreadRand⟩ := read_parts s₁.space.mem argStart.toNat (block argv)
    (stackInfoAt setup start t.p.stackInfo).bytes setup.rand
  rw [hlen] at hreadInfo hreadRand
  rw [hrlen] at hreadRand
  refine ⟨by rw [hsp]; exact halign, hpairs, ?_, _, ?_, hholds.reads hargv ?_ ?_ ?_ ?_⟩
  · rw [hstackInfo]
    show ∀ r ∈ regions t'.p argv envs,
      start.toNat ≤ r.1 ∧ r.1 + r.2 ≤ (start + setup.stackSize).toNat
    rw [hend]
    exact hinside
  · intro fuel hfuel
    refine hholds.startC (by omega) hpos ?_ (by omega) ?_
    · exact auxEntries_ne exec loadAddr interpLoadAddr setup.hwcap uRand
    · show 10 < fuel
      omega
  · rw [hwords _ _ (Nat.le_refl _), hmem]
    exact hreadStrs
  · have haddr : t'.p.stackInfoAddr.toNat = argStart.toNat + (block argv).length := by omega
    rw [hwords _ _ (by omega), hmem, hstackInfo, haddr]
    exact hreadInfo
  · refine henv₁.congr fun x hlo hhi => ?_
    have hx := hapart x hlo hhi
    rw [hmem']
    refine write_outside ?_
    rw [startTable_length]
    omega
  · have haddr : uRand.toNat = argStart.toNat + ((block argv).length + 72) := by omega
    rw [hwords _ _ (by omega), hmem, haddr]
    exact hreadRand

/-- **The monitor reads the stack the kernel has made**: when the kernel grants every call,
`create_elf_tbls` succeeds and leaves a stack that `_start_c` and `nod_start_main` decode. -/
theorem createElfTbls_decoded (hk : k.Maps) (hm : Measures k) (hs : Sorted t.sys.space.mmap)
    {setup : LoadSetup} {exec : ElfImage File} {loadAddr interpLoadAddr : UInt64}
    {argv envs : List (List UInt8)} (hargv : ∀ arg ∈ argv, 0 ∉ arg)
    (henv : EnvBlock t.sys.space.mem setup.envStart setup.envEnd envs)
    (hmapped : ∀ x, setup.envStart.toNat ≤ x → x < setup.envEnd.toNat →
      lookup t.sys.space.mmap x ≠ none)
    (hpos : envs ≠ [] → 0 < setup.envStart.toNat)
    (hroom : stackNeeded argv envs ≤ setup.stackSize.toNat) {ext : List (Request File × UInt64)}
    (hlog : (createElfTbls k setup exec loadAddr interpLoadAddr argv t).2.sys.log =
      t.sys.log ++ ext)
    (hgranted : ∀ e ∈ ext, Granted e) :
    let (r, t') := createElfTbls k setup exec loadAddr interpLoadAddr argv t
    r = .ok () ∧ Decoded setup exec loadAddr interpLoadAddr argv envs t'.sys.space.mem t'.p := by
  obtain ⟨ext', hlog', hiff⟩ :=
    OnlyRefusals.createElfTbls (k := k) setup exec loadAddr interpLoadAddr argv t
  obtain rfl : ext = ext' := List.append_cancel_left (hlog.symm.trans hlog')
  obtain ⟨u, hu⟩ := hiff.mp hgranted
  rcases h : createElfTbls k setup exec loadAddr interpLoadAddr argv t with ⟨r, t'⟩
  rw [h] at hu
  dsimp only at hu
  subst hu
  exact ⟨rfl, createElfTbls_ok hk hm hs hargv henv hmapped hpos hroom h⟩

end Agree

/-- A stack of 1 MiB, and an environment of one string at 4 KiB. -/
def oneEnvSetup : LoadSetup where
  stackSize := 0x100000
  rand := List.replicate 16 7
  hwcap := 0
  envStart := 0x1000
  envEnd := 0x1003
  rand_length := rfl
  stackSize_lt := by decide

/-- A task with this environment, which was never in the monitor. -/
def oneEnvState : LoadState Unit where
  sys :=
    { space :=
        { mmap := [⟨0x1000, 0x2000, none, ⟨true, true, false⟩, .application⟩]
          mem := fun x => if x = 0x1000 then 65 else if x = 0x1001 then 61 else 0 }
      log := []
      underflow := false }
  p := ⟨0x5000, 100, 1, -1, 0, 0, 0, .nodOut, NodStackInfo.zero⟩

/-- An image without segments, for the auxiliary vector. -/
def bareImage : ElfImage Unit := ⟨(), etDyn, 0x40, 0x40, []⟩

theorem createElfTbls_oneEnv :
    let (r, t') := createElfTbls (roomyKern fun _ => []) oneEnvSetup bareImage 0x10000 0x20000
      [[47, 109]] oneEnvState
    r = .ok () ∧ Decoded oneEnvSetup bareImage 0x10000 0x20000 [[47, 109]] [[65, 61]]
      t'.sys.space.mem t'.p := by
  have hsorted : Sorted oneEnvState.sys.space.mmap := ⟨by decide, by decide⟩
  have henv : EnvBlock oneEnvState.sys.space.mem oneEnvSetup.envStart oneEnvSetup.envEnd
      [[65, 61]] := ⟨by decide, by decide, by decide, by decide⟩
  have hmapped : ∀ x, oneEnvSetup.envStart.toNat ≤ x → x < oneEnvSetup.envEnd.toNat →
      lookup oneEnvState.sys.space.mmap x ≠ none := by
    intro x hlo hhi
    have hx : x = 0x1000 ∨ x = 0x1001 ∨ x = 0x1002 := by
      have h1 : 0x1000 ≤ x := hlo
      have h2 : x < 0x1003 := hhi
      omega
    rcases hx with rfl | rfl | rfl <;> decide
  have hgranted : ∀ e ∈ (createElfTbls (roomyKern fun _ => []) oneEnvSetup bareImage 0x10000
      0x20000 [[47, 109]] oneEnvState).2.sys.log, Granted e := by
    decide +kernel
  have hlog : (createElfTbls (roomyKern fun _ => []) oneEnvSetup bareImage 0x10000
      0x20000 [[47, 109]] oneEnvState).2.sys.log = oneEnvState.sys.log ++
      (createElfTbls (roomyKern fun _ => []) oneEnvSetup bareImage 0x10000
        0x20000 [[47, 109]] oneEnvState).2.sys.log := (List.nil_append _).symm
  have hargv : ∀ arg ∈ [[47, 109]], (0 : UInt8) ∉ arg := by decide
  have hroom : stackNeeded [[47, 109]] [[65, 61]] ≤ oneEnvSetup.stackSize.toNat := by decide
  have hpos : [[65, 61]] ≠ ([] : List (List UInt8)) → 0 < oneEnvSetup.envStart.toNat :=
    fun _ => by decide
  exact @createElfTbls_decoded Unit (roomyKern fun _ => []) oneEnvState (roomyKern_maps _)
    (roomyKern_measures _) hsorted oneEnvSetup bareImage 0x10000 0x20000 [[47, 109]] [[65, 61]]
    hargv henv hmapped hpos hroom _ hlog hgranted

end Loader

end NoDrop
