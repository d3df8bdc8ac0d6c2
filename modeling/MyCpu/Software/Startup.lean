import MyCpu.Software.TrapEntry

/-! # The startup code

`_start` of `init.S`, with which every program begins: the global pointer and the stack pointer are
set, the two sections of uninitialised data are cleared word by word, and `main` is called. The
pseudo-instructions are expanded as the assembler does, without relaxation by the linker. -/

namespace MyCpu.Startup

open Rv32im
open TrapEntry (ra sp gp t0 callLow)

def t1 : Reg := 6#5

/-- The initial stack pointer. -/
def stackTop : Word := 0x00400000#32

/-- The addresses that the linker assigns. -/
structure Layout where
  start : Word
  global_pointer : Word
  sbss_start : Word
  sbss_end : Word
  bss_start : Word
  bss_end : Word
  main : Word

section Code

variable (layout : Layout)

/-- The distance from an instruction to a symbol. -/
def distance (index : ℕ) (symbol : Word) : Word := symbol - addressOf layout.start index

/-- `la rd, symbol` at an index: `auipc` and `addi`. -/
def la (index : ℕ) (rd : Reg) (symbol : Word) : List SystemInstr :=
  [.base (.auipc rd (distance layout index symbol - callLow (distance layout index symbol))),
    .base (.opImm .add rd rd (callLow (distance layout index symbol)))]

/-- The loops `sbss_clear_loop` and `bss_clear_loop`, with the address in `t0` and the end in
    `t1`. -/
def clear_loop : List SystemInstr :=
  [ -- bgeu t0, t1, clear_done
    .base (.branch .geu t0 t1 16#32),
    -- sw zero, 0(t0)
    .base (.store .sw t0 0#5 0#32),
    -- addi t0, t0, 4
    .base (.opImm .add t0 t0 4#32),
    -- j clear_loop
    .base (.jal 0#5 (-12#32))]

/-- `call main` -/
def call_main (index : ℕ) : List SystemInstr :=
  [.base (.auipc ra
    (distance layout index layout.main - callLow (distance layout index layout.main))),
    .base (.jalr ra ra (callLow (distance layout index layout.main)))]

/-- From `_start` to the call; behind it is the loop that halts. -/
def code : List SystemInstr :=
  la layout 0 gp layout.global_pointer ++ [.base (.lui sp stackTop)] ++
    (la layout 3 t0 layout.sbss_start ++ la layout 5 t1 layout.sbss_end) ++ clear_loop ++
    (la layout 11 t0 layout.bss_start ++ la layout 13 t1 layout.bss_end) ++
      clear_loop ++ call_main layout 19

/-- One instruction of the startup code; `legal` is the value that a CSR keeps of what is written to
    it. -/
def step (legal : CsrAddr → Word → Word) (m : Machine) : Machine :=
  match fetch layout.start (code layout) m.hart.pc with
  | some instr => instr.exec legal m
  | none => m

end Code

end MyCpu.Startup
