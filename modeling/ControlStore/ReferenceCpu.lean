import ControlStore.Program
import ControlStore.Schema

set_option autoImplicit false

/-!
The built-in processor: its instruction set and its microprogram. The first state is `INIT`, the
second `FETCH_DECODE`, from which every instruction is dispatched. The selects choose among

* `address_select`: program counter, RS, result, immediate
* `a_select`: RS, program counter
* `b_select`: RT, one, two, immediate
* `pc_select`: result, RS, data bus
* `rd_input_select`: data bus, unused, result
* `alu_op_select`: the operation in `alu_op`, the operation of the opcode
-/
namespace ControlStore.ReferenceCpu

/-- The instructions with their codes. -/
def instructions : List (String × Nat) :=
  [("NOOP", 0x00), ("LW", 0x04), ("SW", 0x05), ("LI", 0x06), ("LWO", 0x07), ("SWO", 0x08),
    ("ADD", 0x10), ("SUB", 0x11), ("AND", 0x12), ("NAND", 0x13), ("OR", 0x14), ("NOR", 0x15),
    ("XOR", 0x16), ("SFTL", 0x18), ("SFTR", 0x19), ("ADDI", 0x1A), ("SUBI", 0x1B),
    ("INC", 0x20), ("DEC", 0x21), ("JMP", 0x30), ("JR", 0x31), ("JPI", 0x32), ("JRI", 0x33),
    ("BEQ", 0x40), ("BZ", 0x41), ("BNG", 0x42)]

/-- The schema of the processor: standard geometry, all defaults zero. -/
def schema : Except SchemaError Schema := Schema.build .standard instructions

/-- The ALU operations that the microprogram chooses itself. -/
inductive AluOp where
  | add
  | sub
  | passA

/-- The number of an operation. -/
def AluOp.code : AluOp → Nat
  | .add => 0x0
  | .sub => 0x1
  | .passA => 0xA

/-- Feeds two operands to the ALU and chooses its operation. -/
def alu (state : State) (a b : Nat) (op : AluOp) : State :=
  state.select "a_select" a |>.select "b_select" b |>.select "alu_op_select" 0
    |>.select "alu_op" op.code

def dispatch (opcodes : List String) (target : String) : Clause := (Clause.goto target).forOpcodes opcodes

/-- No operation; the program counter is loaded from outside. -/
def init : State := (State.named "INIT").goto "FETCH_DECODE"

/-- Loads the instruction register and dispatches. Other instructions do nothing. -/
def fetchDecode : State :=
  State.named "FETCH_DECODE" |>.select "address_select" 0 |>.strobe "read" |>.strobe "ir_write"
    |>.branch
      [dispatch ["NOOP"] "INC_PC",
        dispatch ["LI"] "LOAD_IMMEDIATE",
        dispatch ["JMP"] "JUMP_IMMEDIATE",
        dispatch ["JR"] "JUMP_REGISTER",
        dispatch ["LW"] "LOAD_WORD",
        dispatch ["SW"] "STORE_WORD",
        dispatch ["BEQ"] "BRANCH_IF_EQUAL",
        dispatch ["BZ", "BNG"] "BRANCH_ZERO_OR_NEGATIVE",
        dispatch ["ADDI", "SUBI", "SFTL", "SFTR", "JPI", "LWO", "SWO"] "FETCH_IMMEDIATE",
        dispatch ["JRI"] "JUMP_INDIRECT_FROM_RS",
        dispatch ["ADD", "SUB", "AND", "NAND", "OR", "NOR", "XOR"] "ALU_INSTR",
        dispatch ["INC", "DEC"] "ALU_OP_ONE",
        Clause.goto "INC_PC"]

/-- Moves to the next instruction. -/
def incPc : State :=
  alu (.named "INC_PC") 1 1 .add |>.select "pc_select" 0 |>.strobe "pc_write"
    |>.goto "FETCH_DECODE"

/-- Moves to the next instruction over an immediate. -/
def incPcTwice : State :=
  alu (.named "INC_PC_TWICE") 1 2 .add |>.select "pc_select" 0 |>.strobe "pc_write"
    |>.goto "FETCH_DECODE"

/-- Loads the immediate register and dispatches once more. -/
def fetchImmediate : State :=
  alu (.named "FETCH_IMMEDIATE") 1 1 .add |>.select "address_select" 2 |>.strobe "read"
    |>.strobe "imm_write"
    |>.branch
      [dispatch ["ADDI"] "ADD_IMMEDIATE",
        dispatch ["SUBI"] "SUBTRACT_IMMEDIATE",
        dispatch ["SFTL", "SFTR"] "ALU_INSTR_IMM",
        dispatch ["JPI"] "JUMP_INDIRECT",
        dispatch ["LWO"] "LOAD_WORD_WITH_OFFSET",
        dispatch ["SWO"] "STORE_WORD_WITH_OFFSET"]

/-- Loads the immediate into RD. -/
def loadImmediate : State :=
  alu (.named "LOAD_IMMEDIATE") 1 1 .add |>.select "address_select" 2 |>.strobe "read"
    |>.select "rd_input_select" 0 |>.strobe "register_write"
    |>.branch [Clause.goto "INC_PC_TWICE"]

/-- Jumps to the address that RS points at. -/
def jumpIndirectFromRs : State :=
  State.named "JUMP_INDIRECT_FROM_RS" |>.select "address_select" 1 |>.strobe "read"
    |>.select "pc_select" 2 |>.strobe "pc_write" |>.goto "FETCH_DECODE"

/-- Loads the word at RS plus the immediate into RD. -/
def loadWordWithOffset : State :=
  alu (.named "LOAD_WORD_WITH_OFFSET") 0 3 .add |>.select "address_select" 2
    |>.select "rd_input_select" 0 |>.strobe "register_write" |>.goto "INC_PC_TWICE"

/-- Stores RT at RS plus the immediate. -/
def storeWordWithOffset : State :=
  alu (.named "STORE_WORD_WITH_OFFSET") 0 3 .add |>.select "address_select" 2
    |>.strobe "write" |>.goto "INC_PC_TWICE"

/-- Jumps to the immediate. -/
def jumpImmediate : State :=
  alu (.named "JUMP_IMMEDIATE") 1 1 .add |>.select "address_select" 2 |>.strobe "read"
    |>.select "pc_select" 2 |>.strobe "pc_write" |>.goto "FETCH_DECODE"

/-- Jumps to RS. -/
def jumpRegister : State :=
  State.named "JUMP_REGISTER" |>.select "pc_select" 1 |>.strobe "pc_write"
    |>.goto "FETCH_DECODE"

/-- Jumps to the address that the immediate points at. -/
def jumpIndirect : State :=
  State.named "JUMP_INDIRECT" |>.select "address_select" 3 |>.strobe "read"
    |>.select "pc_select" 2 |>.strobe "pc_write" |>.goto "FETCH_DECODE"

/-- Loads the word at RS into RD. -/
def loadWord : State :=
  State.named "LOAD_WORD" |>.select "address_select" 1 |>.strobe "read"
    |>.select "rd_input_select" 0 |>.strobe "register_write" |>.goto "INC_PC"

/-- Stores RT at RS. -/
def storeWord : State :=
  State.named "STORE_WORD" |>.select "address_select" 1 |>.strobe "write" |>.goto "INC_PC"

/-- Sets the flags to RS minus RT and branches on zero. -/
def branchIfEqual : State :=
  alu (.named "BRANCH_IF_EQUAL") 0 0 .sub |>.strobe "flags_write"
    |>.branch
      [(dispatch ["BEQ"] "JUMP_IMMEDIATE").whenZero true,
        (dispatch ["BEQ"] "INC_PC_TWICE").whenZero false]

/-- Sets the flags to RS and branches on the flag that the instruction names. -/
def branchZeroOrNegative : State :=
  State.named "BRANCH_ZERO_OR_NEGATIVE" |>.select "a_select" 0 |>.select "alu_op_select" 0
    |>.select "alu_op" AluOp.passA.code |>.strobe "flags_write"
    |>.branch
      [(dispatch ["BZ"] "JUMP_IMMEDIATE").whenZero true,
        (dispatch ["BZ"] "INC_PC_TWICE").whenZero false,
        (dispatch ["BNG"] "JUMP_IMMEDIATE").whenNegative true,
        (dispatch ["BNG"] "INC_PC_TWICE").whenNegative false]

/-- Adds the immediate to RS. -/
def addImmediate : State :=
  alu (.named "ADD_IMMEDIATE") 0 3 .add |>.select "rd_input_select" 2
    |>.strobe "register_write" |>.goto "INC_PC_TWICE"

/-- Subtracts the immediate from RS. -/
def subtractImmediate : State :=
  alu (.named "SUBTRACT_IMMEDIATE") 0 3 .sub |>.select "rd_input_select" 2
    |>.strobe "register_write" |>.goto "INC_PC_TWICE"

/-- Combines RS and RT by the opcode's operation. -/
def aluInstr : State :=
  State.named "ALU_INSTR" |>.select "a_select" 0 |>.select "b_select" 0
    |>.select "alu_op_select" 1 |>.select "rd_input_select" 2 |>.strobe "register_write"
    |>.goto "INC_PC"

/-- Combines RS and the immediate by the opcode's operation. -/
def aluInstrImm : State :=
  State.named "ALU_INSTR_IMM" |>.select "a_select" 0 |>.select "b_select" 3
    |>.select "alu_op_select" 1 |>.select "rd_input_select" 2 |>.strobe "register_write"
    |>.goto "INC_PC_TWICE"

/-- Combines RS and one by the opcode's operation. -/
def aluOpOne : State :=
  State.named "ALU_OP_ONE" |>.select "a_select" 0 |>.select "b_select" 1
    |>.select "alu_op_select" 1 |>.select "rd_input_select" 2 |>.strobe "register_write"
    |>.goto "INC_PC"

/-- The microprogram; the order of the states gives their codes. -/
def program : Program :=
  ⟨[init, fetchDecode, incPc, incPcTwice, fetchImmediate, loadImmediate, jumpIndirectFromRs,
    loadWordWithOffset, storeWordWithOffset, jumpImmediate, jumpRegister, jumpIndirect, loadWord,
    storeWord, branchIfEqual, branchZeroOrNegative, addImmediate, subtractImmediate, aluInstr,
    aluInstrImm, aluOpOne]⟩

end ControlStore.ReferenceCpu
