import Mathlib.Logic.Function.Basic
import Mathlib.Data.UInt

/-! # Saving the context and putting it back

`nod_prepare_context` and `nod_restore_context` of `kmodule/privil.c`, with what
`nod_load_monitor` does between them to send the thread into the monitor.

The context that is saved is the general registers of `pt_regs` and the two segment
bases, as `thread_struct` has them.  Nothing is saved of the segment selectors and of the
x87 and SSE registers: the former are cleared when the context is put back, the latter
stay as the monitor left them.  `resume_eq_iff` says exactly when the application does not
notice.
-/
namespace NoDrop

/-! ## The processor -/

/-- The registers of `struct pt_regs`. -/
inductive Reg where
  | r15 | r14 | r13 | r12 | bp | bx | r11 | r10 | r9 | r8 | ax | cx | dx | si | di
  | origAx | ip | cs | flags | sp | ss
deriving DecidableEq, Repr

/-- `struct pt_regs`. -/
abbrev PtRegs := Reg → UInt64

/-- What a thread sees of the processor in user mode.  `Fpu` is the state of the x87 and
SSE registers. -/
structure Cpu (Fpu : Type) where
  regs : PtRegs
  fsBase : UInt64
  gsBase : UInt64
  fs : UInt16
  gs : UInt16
  ds : UInt16
  es : UInt16
  fpu : Fpu

/-- The segment part of `struct thread_struct`, which is the processor's while another
thread runs and may be out of date while this one does. -/
structure ThreadStruct where
  fsbase : UInt64
  gsbase : UInt64
  fsindex : UInt16
  gsindex : UInt16
  ds : UInt16
  es : UInt16

/-- `struct nod_proc_context`. -/
structure ProcContext where
  available : Bool
  fsbase : UInt64
  gsbase : UInt64
  regs : PtRegs

/-! ## The code -/

/-- `nod_prepare_context`. -/
def nodPrepareContext (th : ThreadStruct) (regs : PtRegs) : ProcContext :=
  ⟨true, th.fsbase, th.gsbase, regs⟩

/-- `elf_reg_init`. -/
def elfRegInit (regs : PtRegs) (ds : UInt16) : ThreadStruct × PtRegs :=
  (⟨0, 0, 0, 0, ds, ds⟩, fun r =>
    match r with
    | .bx | .cx | .dx | .si | .di | .bp | .r8 | .r9 | .r10 | .r11 | .r12 | .r13 | .r14 | .r15 => 0
    | r => regs r)

section Code

variable {Fpu : Type}

/-- `nod_write_fsbase`, which loads the null selector first. -/
def nodWriteFsbase (fsbase : UInt64) (s : Cpu Fpu × ThreadStruct) : Cpu Fpu × ThreadStruct :=
  ({ s.1 with fs := 0, fsBase := fsbase }, { s.2 with fsbase := fsbase })

/-- `nod_write_gsbase`, which loads the null selector first. -/
def nodWriteGsbase (gsbase : UInt64) (s : Cpu Fpu × ThreadStruct) : Cpu Fpu × ThreadStruct :=
  ({ s.1 with gs := 0, gsBase := gsbase }, { s.2 with gsbase := gsbase })

/-- `nod_restore_context`. -/
def nodRestoreContext (ctx : ProcContext) (s : Cpu Fpu × ThreadStruct) :
    ProcContext × Cpu Fpu × ThreadStruct :=
  if ctx.available = false then (ctx, s)
  else
    ({ ctx with available := false },
      nodWriteFsbase ctx.fsbase (nodWriteGsbase ctx.gsbase ({ s.1 with regs := ctx.regs }, s.2)))

/-- The end of `nod_load_monitor`, from `nod_prepare_context` on: the thread will return
to user mode at the monitor's entry point, on its stack. -/
def enterMonitor (stackAddr entryAddr : UInt64) (s : Cpu Fpu × ThreadStruct) :
    ProcContext × Cpu Fpu × ThreadStruct :=
  let ctx := nodPrepareContext s.2 s.1.regs
  let (th, regs) := elfRegInit s.1.regs 0
  let regs := Function.update regs .sp stackAddr
  let regs := Function.update (Function.update regs .ip entryAddr) .cx entryAddr
  (ctx, { s.1 with regs := regs }, th)

end Code

/-! ## The monitor -/

/-- What an instruction of the monitor does to the processor, as far as a thread sees it.
Loading a selector also loads the base of its descriptor. -/
inductive MonitorInstr (Fpu : Type) where
  | setReg (r : Reg) (v : UInt64)
  | setFs (sel : UInt16) (base : UInt64)
  | setGs (sel : UInt16) (base : UInt64)
  | setFsBase (base : UInt64)
  | setGsBase (base : UInt64)
  | setDs (sel : UInt16)
  | setEs (sel : UInt16)
  | setFpu (fpu : Fpu)

section Monitor

variable {Fpu : Type}

/-- One instruction. -/
def MonitorInstr.run (c : Cpu Fpu) : MonitorInstr Fpu → Cpu Fpu
  | .setReg r v => { c with regs := Function.update c.regs r v }
  | .setFs sel base => { c with fs := sel, fsBase := base }
  | .setGs sel base => { c with gs := sel, gsBase := base }
  | .setFsBase base => { c with fsBase := base }
  | .setGsBase base => { c with gsBase := base }
  | .setDs sel => { c with ds := sel }
  | .setEs sel => { c with es := sel }
  | .setFpu fpu => { c with fpu := fpu }

/-- A sequence of them. -/
def runMonitor (prog : List (MonitorInstr Fpu)) (c : Cpu Fpu) : Cpu Fpu :=
  prog.foldl MonitorInstr.run c

/-- The processor as the application finds it when its thread, sent into the monitor on
its way out of a system call, has run `prog` there and asked for its context.  The thread
may have been switched out any number of times meanwhile, so that nothing is known of
its `thread_struct`, which is `th'` by then. -/
def resume (stackAddr entryAddr : UInt64) (prog : List (MonitorInstr Fpu)) (c : Cpu Fpu)
    (th th' : ThreadStruct) : Cpu Fpu :=
  let (ctx, c', _) := enterMonitor stackAddr entryAddr (c, th)
  (nodRestoreContext ctx (runMonitor prog c', th')).2.1

/-- The segments and the floating-point state after a sequence of instructions do not
depend on the rest of the processor. -/
theorem runMonitor_unsaved (prog : List (MonitorInstr Fpu)) {c d : Cpu Fpu} (hds : c.ds = d.ds)
    (hes : c.es = d.es) (hfpu : c.fpu = d.fpu) :
    (runMonitor prog c).ds = (runMonitor prog d).ds ∧
      (runMonitor prog c).es = (runMonitor prog d).es ∧
      (runMonitor prog c).fpu = (runMonitor prog d).fpu := by
  induction prog generalizing c d with
  | nil => exact ⟨hds, hes, hfpu⟩
  | cons i prog ih =>
    simp only [runMonitor, List.foldl_cons] at ih ⊢
    cases i with
    | setDs sel => exact ih rfl hes hfpu
    | setEs sel => exact ih hds rfl hfpu
    | setFpu fpu => exact ih hds hes rfl
    | setReg | setFs | setGs | setFsBase | setGsBase => exact ih hds hes hfpu

/-- What the application finds: its registers, null selectors, the bases its
`thread_struct` had, and the rest as the monitor left it. -/
theorem resume_eq (stackAddr entryAddr : UInt64) (prog : List (MonitorInstr Fpu)) (c : Cpu Fpu)
    (th th' : ThreadStruct) :
    resume stackAddr entryAddr prog c th th' =
      { regs := c.regs, fsBase := th.fsbase, gsBase := th.gsbase, fs := 0, gs := 0
        ds := (runMonitor prog c).ds, es := (runMonitor prog c).es
        fpu := (runMonitor prog c).fpu } := by
  obtain ⟨hds, hes, hfpu⟩ := runMonitor_unsaved prog (c := c)
    (d := (enterMonitor stackAddr entryAddr (c, th)).2.1) rfl rfl rfl
  rw [hds, hes, hfpu]
  rfl

/-- **When the monitor is transparent.**  The application resumes with the processor it
had exactly if its segment selectors were null, the bases in its `thread_struct` were up
to date, and the monitor's instructions leave `ds`, `es` and the x87 and SSE registers as
they found them. -/
theorem resume_eq_iff (stackAddr entryAddr : UInt64) (prog : List (MonitorInstr Fpu))
    (c : Cpu Fpu) (th th' : ThreadStruct) :
    resume stackAddr entryAddr prog c th th' = c ↔
      c.fs = 0 ∧ c.gs = 0 ∧ th.fsbase = c.fsBase ∧ th.gsbase = c.gsBase ∧
        (runMonitor prog c).ds = c.ds ∧ (runMonitor prog c).es = c.es ∧
        (runMonitor prog c).fpu = c.fpu := by
  rw [resume_eq]
  constructor
  · intro h
    have hds := congrArg Cpu.ds h
    have hes := congrArg Cpu.es h
    have hfpu := congrArg Cpu.fpu h
    exact ⟨(congrArg Cpu.fs h).symm, (congrArg Cpu.gs h).symm, congrArg Cpu.fsBase h,
      congrArg Cpu.gsBase h, hds, hes, hfpu⟩
  · rintro ⟨hfs, hgs, hfsBase, hgsBase, hds, hes, hfpu⟩
    rw [hfsBase, hgsBase, hds, hes, hfpu, ← hfs]
    cases c
    simp only at hfs hgs
    rw [hfs, hgs]

/-- An application with no segments to speak of. -/
def flatCpu : Cpu Nat where
  regs _ := 0
  fsBase := 0
  gsBase := 0
  fs := 0
  gs := 0
  ds := 0
  es := 0
  fpu := 0

/-- **The monitor is not transparent**: an instruction that writes an SSE register, as
compiled C does, shows in the application. -/
theorem resume_ne_of_sse : ¬ ∀ (stackAddr entryAddr : UInt64) (prog : List (MonitorInstr Nat))
    (c : Cpu Nat) (th th' : ThreadStruct), resume stackAddr entryAddr prog c th th' = c := by
  intro hall
  have h := hall 0x7000 0x1000 [.setFpu 1] flatCpu ⟨0, 0, 0, 0, 0, 0⟩ ⟨0, 0, 0, 0, 0, 0⟩
  rw [resume_eq] at h
  exact absurd (congrArg Cpu.fpu h) (by decide)

end Monitor

end NoDrop
